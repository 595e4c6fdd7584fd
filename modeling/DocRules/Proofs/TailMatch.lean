import Mathlib.Data.List.DropRight
import Mathlib.Data.Nat.Find
import Mathlib.Order.Bounds.Defs
import DocRules.Path

/-! # Shared tails of paths

How many segments two paths share at their ends is the largest number of last segments that
agree, the length of the longest tail that they have in common. -/

namespace DocRules

/-- The agreeing pairs at the front of two lists are those of their longest common beginning. -/
theorem le_length_takeWhile_zip {α : Type} [DecidableEq α] (xs ys : List α) (n : Nat) :
    n ≤ ((xs.zip ys).takeWhile fun (a, b) => a == b).length ↔
      n ≤ xs.length ∧ n ≤ ys.length ∧ xs.take n = ys.take n := by
  induction xs generalizing ys n with
  | nil => cases n <;> simp
  | cons x xs ih =>
    cases ys with
    | nil => cases n <;> simp
    | cons y ys =>
      cases n with
      | zero => simp
      | succ n =>
        by_cases h : x = y
        · subst h
          simp [ih]
        · simp [h]

namespace Path

/-- The largest number of last segments that two paths have in common. -/
def commonTail (p q : Path) : Nat :=
  Nat.findGreatest (fun n => p.segments.rtake n = q.segments.rtake n) (min p.length q.length)

theorem le_tailMatch_iff {p q : Path} {n : Nat} :
    n ≤ p.tailMatch q ↔
      n ≤ p.length ∧ n ≤ q.length ∧ p.segments.rtake n = q.segments.rtake n := by
  rw [tailMatch, le_length_takeWhile_zip, List.length_reverse, List.length_reverse,
    List.rtake_eq_reverse_take_reverse, List.rtake_eq_reverse_take_reverse, List.reverse_inj]
  rfl

theorem tailMatch_eq_commonTail (p q : Path) : p.tailMatch q = p.commonTail q := by
  obtain ⟨hp, hq, ht⟩ := le_tailMatch_iff.1 (Nat.le_refl (p.tailMatch q))
  refine Eq.symm (Nat.findGreatest_eq_iff.2
    ⟨Nat.le_min.2 ⟨hp, hq⟩, fun _ => ht, fun n hn hle he => ?_⟩)
  obtain ⟨hnp, hnq⟩ := Nat.le_min.1 hle
  exact absurd (le_tailMatch_iff.2 ⟨hnp, hnq, he⟩) (Nat.not_le_of_lt hn)

theorem commonTail_le_length_left (p q : Path) : p.commonTail q ≤ p.length :=
  Nat.le_trans (Nat.findGreatest_le _) (Nat.min_le_left _ _)

theorem commonTail_le_length_right (p q : Path) : p.commonTail q ≤ q.length :=
  Nat.le_trans (Nat.findGreatest_le _) (Nat.min_le_right _ _)

/-- Paths share something at their ends just if they end with the same segment. -/
theorem tailMatch_pos_iff {p q : Path} :
    0 < p.tailMatch q ↔ ∃ s, p.last? = some s ∧ q.last? = some s := by
  rw [tailMatch, last?, last?, List.getLast?_eq_head?_reverse, List.getLast?_eq_head?_reverse]
  cases p.segments.reverse with
  | nil => simp
  | cons a as =>
    cases q.segments.reverse with
    | nil => simp
    | cons b bs =>
      by_cases h : a = b
      · simp [h]
      · simp [h, Ne.symm h]

/-! ## The longest common tail -/

/-- The last `n` segments of two paths are the same. -/
def SharesTail (p q : Path) (n : Nat) : Prop :=
  ∃ tail : List String, tail.length = n ∧ tail <:+ p.segments ∧ tail <:+ q.segments

section SharesTail

variable {p q r : Path} {n : Nat}

theorem SharesTail.symm (h : SharesTail p q n) : SharesTail q p n := by
  obtain ⟨tail, hn, hp, hq⟩ := h
  exact ⟨tail, hn, hq, hp⟩

theorem SharesTail.trans (h : SharesTail p q n) (h' : SharesTail q r n) : SharesTail p r n := by
  obtain ⟨tail, hn, hp, hq⟩ := h
  obtain ⟨tail', hn', hq', hr⟩ := h'
  -- both are the last segments of the path in the middle
  have hsuffix : tail <:+ tail' := List.suffix_of_suffix_length_le hq hq' (by omega)
  have heq : tail = tail' := hsuffix.eq_of_length (by omega)
  rw [← heq] at hr
  exact ⟨tail, hn, hp, hr⟩

theorem sharesTail_iff : SharesTail p q n ↔ n ≤ p.tailMatch q := by
  rw [le_tailMatch_iff]
  constructor
  · intro h
    obtain ⟨tail, rfl, hp, hq⟩ := h
    refine ⟨hp.length_le, hq.length_le, ?_⟩
    rw [List.rtake, List.rtake, ← List.suffix_iff_eq_drop.1 hp, ← List.suffix_iff_eq_drop.1 hq]
  · intro h
    obtain ⟨hp, hq, he⟩ := h
    have hlength : (p.segments.rtake n).length = n := by
      rw [List.rtake, List.length_drop]
      exact Nat.sub_sub_self hp
    refine ⟨p.segments.rtake n, hlength, List.drop_suffix _ _, ?_⟩
    rw [he]
    exact List.drop_suffix _ _

theorem tailMatch_comm (p q : Path) : p.tailMatch q = q.tailMatch p := by
  refine eq_of_forall_le_iff ?_
  intro n
  rw [← sharesTail_iff, ← sharesTail_iff]
  exact ⟨SharesTail.symm, SharesTail.symm⟩

theorem tailMatch_eq_length_iff : p.tailMatch q = p.length ↔ p.segments <:+ q.segments := by
  constructor
  · intro h
    obtain ⟨tail, hlength, hp, hq⟩ := sharesTail_iff.2 h.ge
    rwa [← hp.eq_of_length hlength]
  · intro h
    have hle : p.tailMatch q ≤ p.length := (le_tailMatch_iff.1 (Nat.le_refl _)).1
    exact Nat.le_antisymm hle (sharesTail_iff.1 ⟨p.segments, rfl, List.suffix_rfl, h⟩)

theorem tailMatch_pos_iff_ends :
    0 < p.tailMatch q ↔ p.segments ≠ [] ∧ q.segments ≠ [] ∧ p.last? = q.last? := by
  rw [tailMatch_pos_iff]
  constructor
  · intro h
    obtain ⟨s, hp, hq⟩ := h
    refine ⟨?_, ?_, hp.trans hq.symm⟩
    · exact List.ne_nil_of_mem (List.mem_of_getLast? hp)
    · exact List.ne_nil_of_mem (List.mem_of_getLast? hq)
  · intro h
    obtain ⟨hne, -, he⟩ := h
    have hp : p.last? = some (p.segments.getLast hne) := List.getLast?_eq_getLast_of_ne_nil hne
    exact ⟨_, hp, he ▸ hp⟩

theorem min_tailMatch_le (p q r : Path) :
    min (p.tailMatch q) (q.tailMatch r) ≤ p.tailMatch r := by
  have hpq : SharesTail p q (min (p.tailMatch q) (q.tailMatch r)) :=
    sharesTail_iff.2 (Nat.min_le_left _ _)
  have hqr : SharesTail q r (min (p.tailMatch q) (q.tailMatch r)) :=
    sharesTail_iff.2 (Nat.min_le_right _ _)
  exact sharesTail_iff.1 (hpq.trans hqr)

/-- The number of shared segments is the length of the longest common tail. It is the same from both
sides, it is all of a path just if the other one ends with that path, and it is positive just if both
end with the same segment. Two paths share no less than the smaller of what they share with a third. -/
theorem tailMatch_isGreatest (p q r : Path) :
    IsGreatest {n | SharesTail p q n} (p.tailMatch q) ∧
    p.tailMatch q = q.tailMatch p ∧
    (p.tailMatch q = p.length ↔ p.segments <:+ q.segments) ∧
    (0 < p.tailMatch q ↔ p.segments ≠ [] ∧ q.segments ≠ [] ∧ p.last? = q.last?) ∧
    min (p.tailMatch q) (q.tailMatch r) ≤ p.tailMatch r := by
  have hgreatest : IsGreatest {n | SharesTail p q n} (p.tailMatch q) := by
    constructor
    · exact sharesTail_iff.2 (Nat.le_refl _)
    · intro n h
      exact sharesTail_iff.1 h
  exact ⟨hgreatest, tailMatch_comm p q, tailMatch_eq_length_iff, tailMatch_pos_iff_ends,
    min_tailMatch_le p q r⟩

end SharesTail

def rest (p : Path) : Path := ⟨p.segments.tail⟩

theorem length_rest (p : Path) : p.rest.length = p.length - 1 := List.length_tail

theorem last?_rest {p : Path} (h : 2 ≤ p.length) : p.rest.last? = p.last? := by
  obtain ⟨ps⟩ := p
  match ps with
  | [] => simp [length] at h
  | [_] => simp [length] at h
  | _ :: _ :: _ => simp [rest, last?]

/-- A path shares something with what follows a wildcard just if it ends like the key. -/
theorem tailMatch_rest_pos {p key : Path} (h : 2 ≤ key.length) :
    0 < p.tailMatch key.rest ↔ key.last? = p.last? := by
  rw [tailMatch_pos_iff, last?_rest h]
  constructor
  · rintro ⟨s, hp, hk⟩
    rw [hp, hk]
  · intro he
    have hne : key.segments ≠ [] := List.ne_nil_of_length_pos (Nat.lt_of_lt_of_le Nat.zero_lt_two h)
    have hk : key.last? = some (key.segments.getLast hne) := List.getLast?_eq_getLast_of_ne_nil hne
    exact ⟨_, he ▸ hk, hk⟩

theorem isTailKey_iff {p : Path} :
    p.isTailKey = true ↔ p.segments.head? = some wildcard ∧ 2 ≤ p.length := by
  simp [isTailKey, and_comm, Nat.succ_le_iff]

theorem tailSuffix?_eq_some {p q : Path} :
    p.tailSuffix? = some q ↔ p.segments.head? = some wildcard ∧ 2 ≤ p.length ∧ q = p.rest := by
  rw [tailSuffix?]
  split
  · rename_i h
    simp [isTailKey_iff.1 h, rest, eq_comm]
  · rename_i h
    simp [← and_assoc, ← isTailKey_iff, h]

end Path

end DocRules
