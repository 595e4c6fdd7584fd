/-! # Tables

A table maps names to values. It keeps its names in the order in which they were first inserted, and
each of them once. -/

namespace DocRules

/-- A finite map from names, in order of insertion. -/
structure Table (β : Type) where
  entries : List (String × β)
  nodup_keys : (entries.map (·.1)).Nodup
deriving DecidableEq, Repr

namespace Table

variable {β : Type}

def empty : Table β := ⟨[], List.nodup_nil⟩

instance : Inhabited (Table β) := ⟨empty⟩

def get? (t : Table β) (key : String) : Option β := t.entries.lookup key

def contains (t : Table β) (key : String) : Bool := (t.get? key).isSome

def keys (t : Table β) : List String := t.entries.map (·.1)

/-- A name has a value just if it is among the names. -/
theorem contains_iff_mem_keys (t : Table β) (key : String) :
    t.contains key = true ↔ key ∈ t.keys := by
  unfold contains get? keys
  induction t.entries with
  | nil => simp
  | cons e entries ih =>
    rw [List.lookup_cons, List.map_cons, List.mem_cons]
    by_cases h : key = e.1
    · simp [h]
    · rw [beq_false_of_ne h]
      simp [h, ih]

/-- The entry with its value replaced, if it has the name. -/
def replaceIn (key : String) (value : β) (e : String × β) : String × β :=
  if e.1 == key then (key, value) else e

/-- Replacing values changes no name. -/
theorem map_fst_replaceIn (key : String) (value : β) (entries : List (String × β)) :
    (entries.map (replaceIn key value)).map (·.1) = entries.map (·.1) := by
  rw [List.map_map]
  refine List.map_congr_left fun e _ => ?_
  by_cases h : e.1 = key <;> simp [replaceIn, h]

/-- The table with a value under a name, in place of the one it had. -/
def insert (t : Table β) (key : String) (value : β) : Table β :=
  if h : t.contains key then
    ⟨t.entries.map (replaceIn key value), by
      rw [map_fst_replaceIn]
      exact t.nodup_keys⟩
  else
    ⟨t.entries ++ [(key, value)], by
      have hk : key ∉ t.keys := fun hm => h ((t.contains_iff_mem_keys key).2 hm)
      rw [List.map_append, List.nodup_append]
      refine ⟨t.nodup_keys, by simp, ?_⟩
      intro a ha b hb hab
      rw [List.map_cons, List.map_nil, List.mem_singleton] at hb
      rw [hab, hb] at ha
      exact hk ha⟩

def erase (t : Table β) (key : String) : Table β :=
  ⟨t.entries.filter (·.1 != key), (List.filter_sublist.map _).nodup t.nodup_keys⟩

/-- Where a name was, its new value is found; the values of other names stay. -/
theorem lookup_map_replaceIn (key : String) (value : β) (entries : List (String × β))
    (other : String) :
    (entries.map (replaceIn key value)).lookup other =
      if other = key then (entries.lookup key).map fun _ => value else entries.lookup other := by
  induction entries with
  | nil => simp
  | cons e entries ih =>
    obtain ⟨name, old⟩ := e
    rw [List.map_cons, List.lookup_cons, List.lookup_cons, List.lookup_cons, ih]
    by_cases hn : name = key
    · subst hn
      by_cases ho : other = name
      · simp [replaceIn, ho]
      · simp [replaceIn, ho, beq_false_of_ne ho]
    · by_cases ho : other = key
      · subst ho
        simp [replaceIn, hn, beq_false_of_ne (Ne.symm hn)]
      · simp [replaceIn, hn, ho]

/-- An inserted value is found under its name, and every other name keeps its value. -/
theorem get?_insert (t : Table β) (key : String) (value : β) (other : String) :
    (t.insert key value).get? other = if other = key then some value else t.get? other := by
  unfold insert
  split
  · rename_i h
    obtain ⟨old, ho⟩ := Option.isSome_iff_exists.1 h
    rw [get?] at ho
    simp only [get?, lookup_map_replaceIn, ho, Option.map_some]
  · rename_i h
    have hn : t.entries.lookup key = none :=
      Option.not_isSome_iff_eq_none.1 h
    by_cases ho : other = key
    · simp [get?, ho, List.lookup_append, hn]
    · simp [get?, ho, List.lookup_append, List.lookup_cons, beq_false_of_ne ho]

def insertEntries (t : Table β) (entries : List (String × β)) : Table β :=
  entries.foldl (fun t e => t.insert e.1 e.2) t

def insertAll (t u : Table β) : Table β := t.insertEntries u.entries

/-- What is inserted counts before what was there. -/
theorem get?_insertEntries (t : Table β) {entries : List (String × β)}
    (h : (entries.map (·.1)).Nodup) (key : String) :
    (t.insertEntries entries).get? key = (entries.lookup key).or (t.get? key) := by
  induction entries generalizing t with
  | nil => simp [insertEntries]
  | cons e entries ih =>
    obtain ⟨name, value⟩ := e
    obtain ⟨hnew, hrest⟩ := List.nodup_cons.1 h
    rw [insertEntries, List.foldl_cons, ← insertEntries, ih _ hrest, get?_insert, List.lookup_cons]
    by_cases hk : key = name
    · have hnone : entries.lookup key = none := by
        refine List.lookup_eq_none_iff.2 fun p hp => bne_iff_ne.2 fun he => hnew ?_
        exact List.mem_map.2 ⟨p, hp, he.symm.trans hk⟩
      rw [hnone, if_pos hk, beq_iff_eq.2 hk, Option.none_or, Option.some_or]
    · rw [if_neg hk, beq_false_of_ne hk]

theorem get?_insertAll (t u : Table β) (key : String) :
    (t.insertAll u).get? key = (u.get? key).or (t.get? key) :=
  get?_insertEntries t u.nodup_keys key

/-- The table of a list of entries, of which the last one with a name counts. -/
def ofList (entries : List (String × β)) : Table β := empty.insertEntries entries

end Table

end DocRules
