import Mathlib.Data.List.Basic
import Mathlib.Data.List.Induction
import Std.Data.HashMap.Lemmas
import DocRules.Rules

/-! # Rule books as lists of registrations

A book holds one rule for every key that was registered, in the order of the first registrations,
and the index tells the place of each. So the book is determined by the keys without repetitions and
by the actions registered under each. -/

namespace DocRules

variable {ι : Type}

/-! ## Repetitions -/

section EraseDups

variable {α : Type} [DecidableEq α]

theorem eraseDups_concat (xs : List α) (x : α) :
    (xs ++ [x]).eraseDups = if x ∈ xs then xs.eraseDups else xs.eraseDups ++ [x] := by
  rw [List.eraseDups_append]
  by_cases h : x ∈ xs
  · simp [List.removeAll, h]
  · simp [List.removeAll, h, List.eraseDups_cons]

/-- What is left of a list without its repetitions comes in the order of the first occurrences. -/
theorem pairwise_idxOf_eraseDups (xs : List α) :
    xs.eraseDups.Pairwise fun a b => xs.idxOf a < xs.idxOf b := by
  induction xs using List.reverseRecOn with
  | nil => simp
  | append_singleton xs x hp =>
    have hmem : ∀ a ∈ xs.eraseDups, a ∈ xs := fun a ha => List.mem_eraseDups.1 ha
    have hkeep : xs.eraseDups.Pairwise fun a b =>
        (xs ++ [x]).idxOf a < (xs ++ [x]).idxOf b := by
      refine hp.imp_of_mem fun {a b} ha hb hlt => ?_
      rwa [List.idxOf_append_of_mem (hmem a ha), List.idxOf_append_of_mem (hmem b hb)]
    rw [eraseDups_concat]
    split
    · exact hkeep
    · rename_i hx
      refine List.pairwise_append.2 ⟨hkeep, List.pairwise_singleton _ _, fun a ha b hb => ?_⟩
      obtain rfl := List.mem_singleton.1 hb
      have hlt := List.idxOf_lt_length_of_mem (hmem a ha)
      rw [List.idxOf_append_of_mem (hmem a ha), List.idxOf_append_of_notMem hx]
      omega

theorem nodup_eraseDups (xs : List α) : xs.eraseDups.Nodup :=
  (pairwise_idxOf_eraseDups xs).imp fun hlt => by
    rintro rfl
    exact Nat.lt_irrefl _ hlt

end EraseDups

theorem getElem?_concat_eq_some {α : Type} {xs : List α} {x y : α} {i : Nat} :
    (xs ++ [x])[i]? = some y ↔ xs[i]? = some y ∨ i = xs.length ∧ x = y := by
  rw [List.getElem?_append]
  split
  · rename_i hi
    exact ⟨Or.inl, fun h => h.resolve_right fun hx => Nat.ne_of_lt hi hx.1⟩
  · rename_i hi
    rw [List.getElem?_eq_none (Nat.le_of_not_lt hi), List.getElem?_singleton]
    constructor
    · intro h
      split at h
      · rename_i hz
        exact Or.inr ⟨by omega, Option.some.inj h⟩
      · contradiction
    · rintro (h | ⟨rfl, rfl⟩)
      · contradiction
      · simp

/-! ## Registrations -/

/-- The registered keys, each once, in the order of their first registrations. -/
def registeredKeys (registrations : List (Path × ι)) : List Path :=
  (registrations.map (·.1)).eraseDups

def registeredUnder (registrations : List (Path × ι)) (key : Path) : List ι :=
  (registrations.filter (·.1 = key)).map (·.2)

def ruleOf (registrations : List (Path × ι)) (key : Path) : Rule ι :=
  ⟨key, key.tailSuffix?, registeredUnder registrations key⟩

section Registrations

variable (registrations : List (Path × ι)) (key : Path) (action : ι)

theorem registeredUnder_concat (other : Path) :
    registeredUnder (registrations ++ [(key, action)]) other =
      registeredUnder registrations other ++ if key = other then [action] else [] := by
  by_cases h : key = other <;> simp [registeredUnder, List.filter_append, h]

theorem registeredUnder_of_notMem (h : key ∉ registeredKeys registrations) :
    registeredUnder registrations key = [] := by
  rw [registeredUnder, List.map_eq_nil_iff, List.filter_eq_nil_iff]
  intro r hr he
  refine h (List.mem_eraseDups.2 (List.mem_map.2 ⟨r, hr, of_decide_eq_true he⟩))

theorem ruleOf_concat_self :
    ruleOf (registrations ++ [(key, action)]) key =
      { ruleOf registrations key with
        actions := registeredUnder registrations key ++ [action] } := by
  rw [ruleOf, registeredUnder_concat, if_pos rfl]
  rfl

theorem ruleOf_concat_of_ne {other : Path} (h : key ≠ other) :
    ruleOf (registrations ++ [(key, action)]) other = ruleOf registrations other := by
  rw [ruleOf, registeredUnder_concat, if_neg h, List.append_nil]
  rfl

theorem registeredKeys_concat :
    registeredKeys (registrations ++ [(key, action)]) =
      if key ∈ registeredKeys registrations then registeredKeys registrations
      else registeredKeys registrations ++ [key] := by
  rw [registeredKeys, List.map_append, List.map_singleton, eraseDups_concat, registeredKeys]
  simp only [List.mem_eraseDups]

end Registrations

namespace RuleBook

theorem actionsAt?_empty (path : Path) : (empty : RuleBook ι).actionsAt? path = none := by
  simp [actionsAt?, empty, bestTail?]

/-- The book holds what was registered. -/
structure Holds (book : RuleBook ι) (registrations : List (Path × ι)) : Prop where
  rules : book.rules.toList = (registeredKeys registrations).map (ruleOf registrations)
  index : ∀ (key : Path) (i : Nat),
    book.index[key]? = some i ↔ (registeredKeys registrations)[i]? = some key

theorem holds_empty : Holds (empty : RuleBook ι) [] where
  rules := rfl
  index key i := by simp [empty, registeredKeys]

namespace Holds

variable {book : RuleBook ι} {registrations : List (Path × ι)} {key : Path}

theorem size (h : book.Holds registrations) :
    book.rules.size = (registeredKeys registrations).length := by
  rw [← Array.length_toList, h.rules, List.length_map]

theorem mem_keys (h : book.Holds registrations) {i : Nat} (hi : book.index[key]? = some i) :
    key ∈ registeredKeys registrations :=
  List.mem_of_getElem? ((h.index key i).1 hi)

theorem notMem_keys (h : book.Holds registrations) (hk : book.index[key]? = none) :
    key ∉ registeredKeys registrations := by
  intro hm
  obtain ⟨i, hi⟩ := List.mem_iff_getElem?.1 hm
  rw [(h.index key i).2 hi] at hk
  exact Option.some_ne_none i hk

/-- Another action for a key that is there changes the rule of that key only. -/
theorem add_known (h : book.Holds registrations) (action : ι) {i : Nat}
    (hi : book.index[key]? = some i) :
    (book.add key action).Holds (registrations ++ [(key, action)]) := by
  have hkeys : registeredKeys (registrations ++ [(key, action)]) =
      registeredKeys registrations := by
    rw [registeredKeys_concat, if_pos (h.mem_keys hi)]
  rw [add, hi]
  refine ⟨?_, fun other j => by rw [hkeys, h.index]⟩
  rw [hkeys, Array.toList_modify, h.rules]
  refine List.ext_getElem? fun j => ?_
  rw [List.getElem?_modify, List.getElem?_map, List.getElem?_map]
  cases hj : (registeredKeys registrations)[j]? with
  | none => rfl
  | some other =>
    by_cases he : key = other
    · subst he
      have hij : i = j := by
        have := (h.index key j).2 hj
        rw [hi] at this
        exact Option.some.inj this
      simp only [hij, if_true, Option.map_some, Option.map_eq_map]
      rw [ruleOf_concat_self]
      rfl
    · have hij : i ≠ j := by
        rintro rfl
        rw [(h.index key i).1 hi] at hj
        exact he (Option.some.inj hj)
      simp only [if_neg hij, Option.map_some, Option.map_eq_map]
      rw [ruleOf_concat_of_ne _ _ _ he]

/-- A key that is not there yet comes last, with a place of its own in the index. -/
theorem add_new (h : book.Holds registrations) (action : ι) (hn : book.index[key]? = none) :
    (book.add key action).Holds (registrations ++ [(key, action)]) := by
  have hnew := h.notMem_keys hn
  have hkeys : registeredKeys (registrations ++ [(key, action)]) =
      registeredKeys registrations ++ [key] := by
    rw [registeredKeys_concat, if_neg hnew]
  rw [add, hn]
  constructor
  · have hold : (registeredKeys registrations).map (ruleOf (registrations ++ [(key, action)])) =
        (registeredKeys registrations).map (ruleOf registrations) := by
      refine List.map_congr_left fun other ho => ruleOf_concat_of_ne _ _ _ ?_
      rintro rfl
      exact hnew ho
    rw [hkeys, Array.toList_push, h.rules, List.map_append, List.map_singleton, hold,
      ruleOf_concat_self, registeredUnder_of_notMem _ _ hnew]
    rfl
  · intro other j
    rw [hkeys, Std.HashMap.getElem?_insert, h.size, getElem?_concat_eq_some]
    by_cases he : key = other
    · subst he
      have hno : (registeredKeys registrations)[j]? ≠ some key := fun hj =>
        hnew (List.mem_of_getElem? hj)
      simp [hno, eq_comm]
    · simp [he, h.index]

theorem add (h : book.Holds registrations) (key : Path) (action : ι) :
    (book.add key action).Holds (registrations ++ [(key, action)]) := by
  cases hi : book.index[key]? with
  | some i => exact h.add_known action hi
  | none => exact h.add_new action hi

/-- The distinct actions are the registered ones. -/
theorem mem_distinctActions [DecidableEq ι] (h : book.Holds registrations) {a : ι} :
    a ∈ book.distinctActions ↔ a ∈ registrations.map (·.2) := by
  rw [distinctActions, List.mem_eraseDups, h.rules, List.mem_flatMap]
  constructor
  · rintro ⟨rule, hr, ha⟩
    obtain ⟨key, -, rfl⟩ := List.mem_map.1 hr
    obtain ⟨r, hm, rfl⟩ := List.mem_map.1 ha
    exact List.mem_map.2 ⟨r, (List.mem_filter.1 hm).1, rfl⟩
  · intro ha
    obtain ⟨r, hm, rfl⟩ := List.mem_map.1 ha
    have hk : r.1 ∈ registeredKeys registrations :=
      List.mem_eraseDups.2 (List.mem_map.2 ⟨r, hm, rfl⟩)
    refine ⟨ruleOf registrations r.1, List.mem_map.2 ⟨r.1, hk, rfl⟩, ?_⟩
    exact List.mem_map.2 ⟨r, List.mem_filter.2 ⟨hm, decide_eq_true rfl⟩, rfl⟩

theorem foldl (h : book.Holds registrations) (more : List (Path × ι)) :
    (more.foldl (fun book r => book.add r.1 r.2) book).Holds (registrations ++ more) := by
  induction more generalizing book registrations with
  | nil => rwa [List.append_nil]
  | cons r more ih =>
    rw [List.foldl_cons, List.append_cons]
    exact ih (h.add r.1 r.2)

end Holds

theorem holds_ofList (registrations : List (Path × ι)) :
    (ofList registrations).Holds registrations :=
  holds_empty.foldl registrations

end RuleBook

end DocRules
