import DocRules.Proofs.Ordering

/-! # Offsets and their positions

A position tells its offset. The line counts the newlines before the offset and the column the bytes
since the last of them, so that the offset is found again where the line begins; offsets in the
bytes come in the order of their positions, and all offsets behind them have the same one. -/

namespace DocRules.Position

variable {bytes : List UInt8} {offset : Nat}

/-! ## Newlines -/

/-- The number of newlines before an offset. -/
def newlinesBefore (bytes : List UInt8) (offset : Nat) : Nat :=
  (List.range offset).countP fun i => bytes[i]? == some newline

@[simp] theorem newlinesBefore_zero (bytes : List UInt8) : newlinesBefore bytes 0 = 0 := rfl

theorem newlinesBefore_succ (bytes : List UInt8) (offset : Nat) :
    newlinesBefore bytes (offset + 1) =
      newlinesBefore bytes offset + if bytes[offset]? = some newline then 1 else 0 := by
  simp [newlinesBefore, List.range_succ, List.countP_singleton]

theorem newlinesBefore_cons (b : UInt8) (bytes : List UInt8) (offset : Nat) :
    newlinesBefore (b :: bytes) (offset + 1) =
      newlinesBefore bytes offset + if b = newline then 1 else 0 := by
  rw [newlinesBefore, newlinesBefore, List.range_succ_eq_map, List.countP_cons, List.countP_map]
  simp [Function.comp_def]

theorem newlinesBefore_of_since {first : Nat} (hle : first ≤ offset)
    (h : ∀ i, first ≤ i → i < offset → bytes[i]? ≠ some newline) :
    newlinesBefore bytes offset = newlinesBefore bytes first := by
  induction hle with
  | refl => rfl
  | @step offset hle ih =>
    have hnone := h offset hle (Nat.lt_succ_self _)
    have hbefore : ∀ i, first ≤ i → i < offset → bytes[i]? ≠ some newline := by
      intro i hi hlt
      exact h i hi (Nat.lt_succ_of_lt hlt)
    rw [newlinesBefore_succ, if_neg hnone, Nat.add_zero, ih hbefore]

/-! ## Lines and columns -/

/-- The line of an offset begins at `first`: just behind a newline, unless it is the first line, and
with no newline since. -/
structure LineFrom (bytes : List UInt8) (offset first : Nat) : Prop where
  le : first ≤ offset
  behind : ∀ i, first = i + 1 → bytes[i]? = some newline
  since : ∀ i, first ≤ i → i < offset → bytes[i]? ≠ some newline

/-- The position counts the lines up to an offset, and in its line the bytes. -/
structure Measures (bytes : List UInt8) (offset : Nat) (p : Position) : Prop where
  line_eq : p.line = newlinesBefore bytes offset + 1
  column_eq : ∃ first, LineFrom bytes offset first ∧ p.column = offset - first + 1

theorem measures_start (bytes : List UInt8) : Measures bytes 0 start where
  line_eq := rfl
  column_eq := ⟨0, ⟨Nat.le_refl 0, by simp, by simp⟩, rfl⟩

/-- Behind a newline a line begins. -/
theorem Measures.nextLine {p : Position} (h : Measures bytes offset p)
    (hb : bytes[offset]? = some newline) : Measures bytes (offset + 1) ⟨p.line + 1, 1⟩ where
  line_eq := by
    rw [newlinesBefore_succ, if_pos hb, h.line_eq]
  column_eq := by
    refine ⟨offset + 1, ⟨Nat.le_refl _, ?_, ?_⟩, ?_⟩
    · intro i hi
      obtain rfl := Nat.succ.inj hi
      exact hb
    · intro i hle hlt
      omega
    · rw [Nat.sub_self]

/-- Behind any other byte the line goes on. -/
theorem Measures.nextColumn {p : Position} (h : Measures bytes offset p)
    (hb : bytes[offset]? ≠ some newline) :
    Measures bytes (offset + 1) ⟨p.line, p.column + 1⟩ where
  line_eq := by
    rw [newlinesBefore_succ, if_neg hb, h.line_eq]
  column_eq := by
    obtain ⟨first, hf, hcolumn⟩ := h.column_eq
    refine ⟨first, ⟨Nat.le_succ_of_le hf.le, hf.behind, ?_⟩, ?_⟩
    · intro i hle hlt
      rcases Nat.lt_or_eq_of_le (Nat.le_of_lt_succ hlt) with hi | hi
      · exact hf.since i hle hi
      · rwa [hi]
    · show p.column + 1 = _
      rw [hcolumn, Nat.sub_add_comm hf.le]

theorem measures_ofOffset (h : offset ≤ bytes.length) :
    Measures bytes offset (ofOffset bytes offset) := by
  induction offset with
  | zero => exact measures_start bytes
  | succ offset ih =>
    have hm := ih (Nat.le_of_succ_le h)
    rw [ofOffset_succ (List.drop_eq_getElem_cons h)]
    by_cases hb : bytes[offset] = newline
    · rw [if_pos hb]
      exact hm.nextLine (by rw [List.getElem?_eq_getElem h, hb])
    · rw [if_neg hb]
      exact hm.nextColumn (by rwa [List.getElem?_eq_getElem h, ne_eq, Option.some_inj])

/-! ## Back to the offset -/

/-- Where the line behind the first `n` newlines begins. -/
def lineOffset : List UInt8 → Nat → Nat
  | _, 0 => 0
  | [], _ + 1 => 0
  | b :: bytes, n + 1 => lineOffset bytes (if b = newline then n else n + 1) + 1

/-- The offset that a position belongs to. -/
def offsetOf (bytes : List UInt8) (p : Position) : Nat :=
  lineOffset bytes (p.line - 1) + (p.column - 1)

@[simp] theorem lineOffset_zero (bytes : List UInt8) : lineOffset bytes 0 = 0 := by
  cases bytes <;> rfl

/-- A newline is told apart from the others by the number of those before it. -/
theorem lineOffset_newline (h : bytes[offset]? = some newline) :
    lineOffset bytes (newlinesBefore bytes offset + 1) = offset + 1 := by
  induction bytes generalizing offset with
  | nil => simp at h
  | cons b bytes ih =>
    cases offset with
    | zero =>
      obtain rfl : b = newline := by simpa using h
      simp [lineOffset]
    | succ offset =>
      rw [List.getElem?_cons_succ] at h
      rw [newlinesBefore_cons, lineOffset]
      by_cases hb : b = newline
      · simp only [hb, if_true]
        rw [ih h]
      · simp only [hb, if_false, Nat.add_zero]
        rw [ih h]

theorem LineFrom.lineOffset_eq {first : Nat} (h : LineFrom bytes offset first) :
    lineOffset bytes (newlinesBefore bytes offset) = first := by
  rw [newlinesBefore_of_since h.le h.since]
  cases first with
  | zero => simp
  | succ i =>
    have hb := h.behind i rfl
    rw [newlinesBefore_succ, if_pos hb, lineOffset_newline hb]

theorem Measures.offsetOf_eq {p : Position} (h : Measures bytes offset p) :
    offsetOf bytes p = offset := by
  obtain ⟨first, hf, hcolumn⟩ := h.column_eq
  have hle := hf.le
  rw [offsetOf, h.line_eq, hcolumn, Nat.add_sub_cancel, Nat.add_sub_cancel, hf.lineOffset_eq]
  omega

/-- Up to the end of the bytes a greater offset has a later position, and every position tells its
offset; behind the end all have the position of the end. The line counts the newlines before, the
column the bytes since the last of them. -/
theorem ofOffset_tells_offset (bytes : List UInt8) :
    (∀ first second, first < second → second ≤ bytes.length →
      ofOffset bytes first < ofOffset bytes second) ∧
    (∀ offset, offset ≤ bytes.length → offsetOf bytes (ofOffset bytes offset) = offset) ∧
    (∀ offset, bytes.length ≤ offset → ofOffset bytes offset = ofOffset bytes bytes.length) ∧
    ∀ offset, Measures bytes (min offset bytes.length) (ofOffset bytes offset) := by
  refine ⟨?_, ?_, ?_, ?_⟩
  · intro first second hlt hle
    exact ofOffset_lt hlt hle
  · intro offset hle
    exact (measures_ofOffset hle).offsetOf_eq
  · intro offset hle
    rw [← ofOffset_min, Nat.min_eq_right hle]
  · intro offset
    rw [← ofOffset_min]
    exact measures_ofOffset (Nat.min_le_right _ _)

/-- The empty line between two newlines, and an offset behind the end. -/
theorem ofOffset_tells_offset_empty_line :
    let bytes : List UInt8 := [97, 10, 10, 98]
    ofOffset bytes 1 < ofOffset bytes 2 ∧ offsetOf bytes ⟨2, 1⟩ = 2 ∧
      ofOffset bytes 9 = ⟨3, 2⟩ ∧ Measures bytes 2 ⟨2, 1⟩ := by
  intro bytes
  obtain ⟨hlt, hback, hend, hmeasures⟩ := ofOffset_tells_offset bytes
  exact ⟨hlt 1 2 (by decide) (by decide), hback 2 (by decide), hend 9 (by decide), hmeasures 2⟩

end DocRules.Position
