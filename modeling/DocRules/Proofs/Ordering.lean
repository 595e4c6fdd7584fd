import Mathlib.Data.Prod.Lex
import DocRules.Proofs.Locating

/-! # Positions in order

Positions are compared by their lines first and in one line by their columns. In this order the
position of an offset moves on with every byte, and stands still only behind the last one. -/

namespace DocRules.Position

/-- What positions are compared by. -/
def lineColumn (p : Position) : Nat ×ₗ Nat := toLex (p.line, p.column)

theorem lineColumn_injective : Function.Injective lineColumn := by
  rintro ⟨line, column⟩ ⟨otherLine, otherColumn⟩ h
  obtain ⟨rfl, rfl⟩ := Prod.mk.inj (toLex.injective h)
  rfl

instance : LinearOrder Position := LinearOrder.lift' lineColumn lineColumn_injective

theorem lt_iff {p q : Position} :
    p < q ↔ p.line < q.line ∨ p.line = q.line ∧ p.column < q.column :=
  Prod.Lex.lt_iff

theorem ofOffset_lt_succ {bytes : List UInt8} {offset : Nat} (h : offset < bytes.length) :
    ofOffset bytes offset < ofOffset bytes (offset + 1) := by
  rw [ofOffset_succ (List.drop_eq_getElem_cons h), lt_iff]
  split
  · exact .inl (Nat.lt_succ_self _)
  · exact .inr ⟨rfl, Nat.lt_succ_self _⟩

/-- Of two offsets in the bytes the smaller one has the smaller position. -/
theorem ofOffset_lt {bytes : List UInt8} {first second : Nat} (h : first < second)
    (hs : second ≤ bytes.length) : ofOffset bytes first < ofOffset bytes second := by
  induction h with
  | refl => exact ofOffset_lt_succ hs
  | step _ ih => exact (ih (Nat.le_of_succ_le hs)).trans (ofOffset_lt_succ hs)

/-- A smaller offset has no greater position, also behind the last byte. -/
theorem ofOffset_le {bytes : List UInt8} {first second : Nat} (h : first ≤ second) :
    ofOffset bytes first ≤ ofOffset bytes second := by
  rw [← ofOffset_min bytes first, ← ofOffset_min bytes second]
  have hmin : min first bytes.length ≤ min second bytes.length := by omega
  rcases Nat.lt_or_eq_of_le hmin with hlt | heq
  · exact (ofOffset_lt hlt (Nat.min_le_right _ _)).le
  · rw [heq]

theorem ofOffset_inj {bytes : List UInt8} {first second : Nat} (hf : first ≤ bytes.length)
    (hs : second ≤ bytes.length) : ofOffset bytes first = ofOffset bytes second ↔ first = second := by
  refine ⟨fun h => ?_, congrArg _⟩
  rcases Nat.lt_trichotomy first second with hlt | heq | hlt
  · exact absurd h (ofOffset_lt hlt hs).ne
  · exact heq
  · exact absurd h (ofOffset_lt hlt hf).ne'

/-- Every offset but the first one lies behind the start. -/
theorem start_lt_ofOffset {bytes : List UInt8} {offset : Nat} (h : 0 < offset)
    (hb : 0 < bytes.length) : start < ofOffset bytes offset := by
  rw [← ofOffset_min]
  have hpos : 0 < min offset bytes.length := by omega
  have hlt : ofOffset bytes 0 < _ := ofOffset_lt hpos (Nat.min_le_right _ _)
  exact hlt

end DocRules.Position
