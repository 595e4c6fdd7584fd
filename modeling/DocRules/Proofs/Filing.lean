import DocRules.Proofs.Registration
import DocRules.Proofs.TailMatch

/-! # What a rule book files

Registrations in any order leave a book that has filed each of them once, under its key. Its rules
come in the order in which their keys were registered first, the index leads to each of them and
nowhere else, and a rule knows the tail of its key. -/

namespace DocRules

variable {ι : Type}

/-- Grouped by distinct keys, the elements that have one of them are there as often as before. -/
theorem flatMap_filter_perm {α κ : Type} [DecidableEq κ] {keys : List κ} (items : List α)
    (key : α → κ) (hkeys : keys.Nodup) :
    (keys.flatMap fun k => items.filter (key · = k)).Perm (items.filter (key · ∈ keys)) := by
  induction keys with
  | nil => simp
  | cons k keys ih =>
    obtain ⟨hk, hkeys⟩ := List.nodup_cons.1 hkeys
    have hfirst : (items.filter (key · ∈ k :: keys)).filter (key · = k) =
        items.filter (key · = k) := by
      rw [List.filter_filter]
      refine List.filter_congr ?_
      intro item _
      by_cases he : key item = k
      · simp [he]
      · simp [he]
    have hothers : (items.filter (key · ∈ k :: keys)).filter
        (fun item => !decide (key item = k)) = items.filter (key · ∈ keys) := by
      rw [List.filter_filter]
      refine List.filter_congr ?_
      intro item _
      by_cases he : key item = k
      · simp [he, hk]
      · simp [he]
    have hsplit := List.filter_append_perm (fun item => decide (key item = k))
      (items.filter (key · ∈ k :: keys))
    rw [hfirst, hothers] at hsplit
    rw [List.flatMap_cons]
    exact ((ih hkeys).append_left _).trans hsplit

namespace Path

theorem isSome_tailSuffix? {p : Path} :
    p.tailSuffix?.isSome = true ↔ 2 ≤ p.length ∧ p.segments.head? = some wildcard := by
  rw [Option.isSome_iff_exists]
  constructor
  · intro h
    obtain ⟨q, hq⟩ := h
    obtain ⟨hhead, hlong, -⟩ := tailSuffix?_eq_some.1 hq
    exact ⟨hlong, hhead⟩
  · intro h
    exact ⟨p.rest, tailSuffix?_eq_some.2 ⟨h.2, h.1, rfl⟩⟩

theorem segments_of_tailSuffix? {p q : Path} (h : p.tailSuffix? = some q) :
    q.segments ≠ [] ∧ p.segments = wildcard :: q.segments := by
  obtain ⟨hhead, hlong, rfl⟩ := tailSuffix?_eq_some.1 h
  constructor
  · have hlength := length_rest p
    refine List.ne_nil_of_length_pos ?_
    show 0 < p.rest.length
    omega
  · exact (List.cons_head?_tail hhead).symm

end Path

/-! ## The registrations of one key -/

theorem map_registeredUnder (registrations : List (Path × ι)) (key : Path) :
    (registeredUnder registrations key).map (key, ·) = registrations.filter (·.1 = key) := by
  rw [registeredUnder, List.map_map]
  refine (List.map_congr_left ?_).trans (List.map_id _)
  intro r hr
  obtain rfl : r.1 = key := of_decide_eq_true (List.mem_filter.1 hr).2
  rfl

theorem registeredUnder_ne_nil {registrations : List (Path × ι)} {key : Path}
    (h : key ∈ registeredKeys registrations) : registeredUnder registrations key ≠ [] := by
  obtain ⟨r, hr, rfl⟩ := List.mem_map.1 (List.mem_eraseDups.1 h)
  have hmem : r ∈ registrations.filter (·.1 = r.1) := List.mem_filter.2 ⟨hr, by simp⟩
  exact List.ne_nil_of_mem (List.mem_map_of_mem hmem)

namespace RuleBook

/-- The book has filed the registrations. -/
structure Files (book : RuleBook ι) (registrations : List (Path × ι)) : Prop where
  nodup_keys : book.keys.Nodup
  mem_keys : ∀ key, key ∈ book.keys ↔ key ∈ registrations.map (·.1)
  /-- The keys come in the order of their first registrations. -/
  first_keys : book.keys.Pairwise fun key other =>
    (registrations.map (·.1)).idxOf key < (registrations.map (·.1)).idxOf other
  /-- The index leads from a key to the place of its rule, and never anywhere else. -/
  index_iff : ∀ key i,
    book.index[key]? = some i ↔ ∃ h : i < book.rules.size, book.rules[i].key = key
  suffix_eq : ∀ rule ∈ book.rules, rule.suffix? = rule.key.tailSuffix?
  /-- Just the keys of two segments or more that start with the wildcard have a tail behind it. -/
  suffix_isSome : ∀ rule ∈ book.rules,
    rule.suffix?.isSome = true ↔ 2 ≤ rule.key.length ∧ rule.key.segments.head? = some Path.wildcard
  suffix_segments : ∀ rule ∈ book.rules, ∀ suffix, rule.suffix? = some suffix →
    suffix.segments ≠ [] ∧ rule.key.segments = Path.wildcard :: suffix.segments
  actions_eq : ∀ rule ∈ book.rules, rule.actions = registeredUnder registrations rule.key
  actions_ne_nil : ∀ rule ∈ book.rules, rule.actions ≠ []
  /-- The rules have every registration under its key, as often as it was made. -/
  perm : (book.rules.toList.flatMap fun rule => rule.actions.map (rule.key, ·)).Perm registrations

namespace Holds

variable {book : RuleBook ι} {registrations : List (Path × ι)}

theorem keys_eq (h : book.Holds registrations) : book.keys = registeredKeys registrations := by
  rw [keys, h.rules, List.map_map]
  exact List.map_id _

theorem exists_ruleOf (h : book.Holds registrations) {rule : Rule ι} (hr : rule ∈ book.rules) :
    ∃ key ∈ registeredKeys registrations, rule = ruleOf registrations key := by
  rw [← Array.mem_toList_iff, h.rules] at hr
  obtain ⟨key, hk, he⟩ := List.mem_map.1 hr
  exact ⟨key, hk, he.symm⟩

theorem index_iff (h : book.Holds registrations) (key : Path) (i : Nat) :
    book.index[key]? = some i ↔ ∃ h : i < book.rules.size, book.rules[i].key = key := by
  rw [h.index, ← h.keys_eq, keys, List.getElem?_eq_some_iff]
  simp

theorem flatMap_rules_perm (h : book.Holds registrations) :
    (book.rules.toList.flatMap fun rule => rule.actions.map (rule.key, ·)).Perm registrations := by
  have hgroups : (book.rules.toList.flatMap fun rule => rule.actions.map (rule.key, ·)) =
      (registeredKeys registrations).flatMap fun key => registrations.filter (·.1 = key) := by
    rw [h.rules, List.flatMap_map]
    refine List.flatMap_congr ?_
    intro key _
    exact map_registeredUnder registrations key
  have hall : registrations.filter (·.1 ∈ registeredKeys registrations) = registrations := by
    refine List.filter_eq_self.2 ?_
    intro r hr
    exact decide_eq_true (List.mem_eraseDups.2 (List.mem_map_of_mem hr))
  have hperm := flatMap_filter_perm registrations (·.1) (nodup_eraseDups (registrations.map (·.1)))
  rw [← registeredKeys, hall] at hperm
  rw [hgroups]
  exact hperm

end Holds

/-- Whatever was registered, and in whatever order, the book has filed it. -/
theorem files_ofList (registrations : List (Path × ι)) :
    (ofList registrations).Files registrations := by
  have hbook := holds_ofList registrations
  have hkeys := hbook.keys_eq
  constructor
  case nodup_keys =>
    rw [hkeys]
    exact nodup_eraseDups _
  case mem_keys =>
    intro key
    rw [hkeys]
    exact List.mem_eraseDups
  case first_keys =>
    rw [hkeys]
    exact pairwise_idxOf_eraseDups _
  case index_iff => exact hbook.index_iff
  case suffix_eq =>
    intro rule hr
    obtain ⟨key, -, rfl⟩ := hbook.exists_ruleOf hr
    rfl
  case suffix_isSome =>
    intro rule hr
    obtain ⟨key, -, rfl⟩ := hbook.exists_ruleOf hr
    exact Path.isSome_tailSuffix?
  case suffix_segments =>
    intro rule hr suffix hs
    obtain ⟨key, -, rfl⟩ := hbook.exists_ruleOf hr
    exact Path.segments_of_tailSuffix? hs
  case actions_eq =>
    intro rule hr
    obtain ⟨key, -, rfl⟩ := hbook.exists_ruleOf hr
    rfl
  case actions_ne_nil =>
    intro rule hr
    obtain ⟨key, hk, rfl⟩ := hbook.exists_ruleOf hr
    exact registeredUnder_ne_nil hk
  case perm => exact hbook.flatMap_rules_perm

/-- A key in several spellings has one rule, also with another key registered in between. -/
theorem files_ofList_spellings :
    let registrations := [(Path.parse "a/b", 0), (Path.parse "*/b", 1), (⟨["a", "b"]⟩, 2),
      (Path.parse "/a//b/", 3)]
    ∃ rule ∈ (ofList registrations).rules, rule.key = ⟨["a", "b"]⟩ ∧ rule.actions = [0, 2, 3] := by
  intro registrations
  have hfiles := files_ofList registrations
  have hkey : ⟨["a", "b"]⟩ ∈ (ofList registrations).keys := (hfiles.mem_keys _).2 (by decide)
  obtain ⟨rule, hr, hk⟩ := List.mem_map.1 hkey
  have hrule : rule ∈ (ofList registrations).rules := Array.mem_toList_iff.1 hr
  refine ⟨rule, hrule, hk, ?_⟩
  rw [hfiles.actions_eq rule hrule, hk]
  decide

end RuleBook

end DocRules
