import DocRules.Position.Cursor

/-! # The cursor counts as the direct computation does

A cursor that has counted the lines of the bytes it passed locates every offset where the direct
computation does, whether it moves on to it or the offset lies behind, and has counted the lines of
the bytes passed afterwards. So it goes on answering rightly whatever it was asked before. -/

namespace DocRules.Position

theorem ofOffset_succ {bytes : List UInt8} {offset : Nat} {b : UInt8} {ahead : List UInt8}
    (h : bytes.drop offset = b :: ahead) :
    ofOffset bytes (offset + 1) =
      if b = newline then ⟨(ofOffset bytes offset).line + 1, 1⟩
      else ⟨(ofOffset bytes offset).line, (ofOffset bytes offset).column + 1⟩ := by
  have htake : bytes.take (offset + 1) = bytes.take offset ++ [b] := by
    rw [List.take_add, h]
    rfl
  unfold ofOffset
  rw [htake]
  by_cases hb : b = newline
  · simp [hb]
  · simp [hb]

theorem ofOffset_min (bytes : List UInt8) (offset : Nat) :
    ofOffset bytes (min offset bytes.length) = ofOffset bytes offset := by
  unfold ofOffset
  rw [← List.take_eq_take_min]

namespace Cursor

/-- The cursor is on the bytes and has counted the lines of those that it passed. -/
structure Counts (bytes : List UInt8) (c : Cursor) : Prop where
  bytes_eq : c.bytes = bytes
  size_eq : c.size = bytes.length
  offset_le : c.offset ≤ bytes.length
  ahead_eq : c.ahead = bytes.drop c.offset
  lineStart_le : c.lineStart ≤ c.offset
  position_eq : ofOffset bytes c.offset = ⟨c.line, c.offset - c.lineStart + 1⟩

theorem counts_ofBytes (bytes : List UInt8) : (ofBytes bytes).Counts bytes :=
  ⟨rfl, rfl, Nat.zero_le _, rfl, Nat.le_refl _, rfl⟩

theorem Counts.pass {bytes ahead : List UInt8} {c : Cursor} {b : UInt8} (h : c.Counts bytes)
    (hc : c.ahead = b :: ahead) :
    (if b == newline then
      { c with ahead, offset := c.offset + 1, line := c.line + 1, lineStart := c.offset + 1 }
    else { c with ahead, offset := c.offset + 1 } : Cursor).Counts bytes := by
  have hdrop : bytes.drop c.offset = b :: ahead := h.ahead_eq.symm.trans hc
  have hlt : c.offset < bytes.length := by
    have hlength := congrArg List.length hdrop
    rw [List.length_drop, List.length_cons] at hlength
    omega
  have hahead : ahead = bytes.drop (c.offset + 1) := by
    rw [← List.drop_drop, hdrop]
    rfl
  have hnext := ofOffset_succ hdrop
  rw [h.position_eq] at hnext
  by_cases hb : b = newline
  · rw [if_pos (beq_iff_eq.2 hb)]
    rw [if_pos hb] at hnext
    refine ⟨h.bytes_eq, h.size_eq, hlt, hahead, Nat.le_refl _, hnext.trans ?_⟩
    rw [Nat.sub_self]
  · rw [if_neg (mt beq_iff_eq.1 hb)]
    rw [if_neg hb] at hnext
    have hstart := h.lineStart_le
    refine ⟨h.bytes_eq, h.size_eq, hlt, hahead, Nat.le_succ_of_le hstart, hnext.trans ?_⟩
    rw [Nat.sub_add_comm hstart]

theorem Counts.advance {bytes : List UInt8} {c : Cursor} (h : c.Counts bytes) (n : Nat) :
    (advance n c).Counts bytes ∧ (advance n c).offset = min (c.offset + n) bytes.length := by
  induction n generalizing c with
  | zero => exact ⟨h, (Nat.min_eq_left h.offset_le).symm⟩
  | succ n ih =>
    cases hc : c.ahead with
    | nil =>
      have hend : bytes.length ≤ c.offset := List.drop_eq_nil_iff.1 (h.ahead_eq.symm.trans hc)
      rw [Cursor.advance, hc]
      refine ⟨h, ?_⟩
      have hle := h.offset_le
      simp only
      omega
    | cons b ahead =>
      have hpass := h.pass hc
      have hcomm : c.offset + 1 + n = c.offset + (n + 1) := by omega
      rw [Cursor.advance, hc, ← hcomm]
      simp only
      split at hpass
      · rename_i hb
        rw [if_pos hb]
        exact ih hpass
      · rename_i hb
        rw [if_neg hb]
        exact ih hpass

/-- A cursor that has counted locates as the direct computation does, and goes on counting. -/
theorem Counts.locate {bytes : List UInt8} {c : Cursor} (h : c.Counts bytes) (target : Nat) :
    (c.locate target).1.Counts bytes ∧ (c.locate target).2 = ofOffset bytes target := by
  rw [Cursor.locate, h.size_eq]
  simp only
  split
  · rw [h.bytes_eq, ofOffset_min]
    exact ⟨h, rfl⟩
  · rename_i hle
    obtain ⟨hcounts, hoffset⟩ := h.advance (min target bytes.length - c.offset)
    have htarget : (Cursor.advance (min target bytes.length - c.offset) c).offset =
        min target bytes.length := by omega
    have hposition := hcounts.position_eq
    rw [htarget, ofOffset_min] at hposition
    exact ⟨hcounts, hposition.symm⟩

/-! ## One offset after the other -/

def locateAll (c : Cursor) : List Nat → Cursor × List Position
  | [] => (c, [])
  | target :: targets =>
    let (c, p) := c.locate target
    let (c, positions) := c.locateAll targets
    (c, p :: positions)

theorem Counts.locateAll {bytes : List UInt8} {c : Cursor} (h : c.Counts bytes)
    (targets : List Nat) :
    (c.locateAll targets).1.Counts bytes ∧
      (c.locateAll targets).2 = targets.map (ofOffset bytes) := by
  induction targets generalizing c with
  | nil => exact ⟨h, rfl⟩
  | cons target targets ih =>
    obtain ⟨hcounts, hposition⟩ := h.locate target
    obtain ⟨hlast, hpositions⟩ := ih hcounts
    refine ⟨hlast, ?_⟩
    show (c.locate target).2 :: ((c.locate target).1.locateAll targets).2 = _
    rw [hposition, hpositions, List.map_cons]

/-- Locating the offset subtracts nothing that is too large: unless the offset lies behind, the cursor
has passed no more bytes than there are before it, and the line reached begins no later. -/
def SubtractsWithin (c : Cursor) (target : Nat) : Prop :=
  let reached := min target c.size
  reached < c.offset ∨
    c.offset ≤ reached ∧ (c.advance (reached - c.offset)).lineStart ≤ reached

theorem Counts.subtractsWithin {bytes : List UInt8} {c : Cursor} (h : c.Counts bytes)
    (target : Nat) : c.SubtractsWithin target := by
  rcases Nat.lt_or_ge (min target c.size) c.offset with hbehind | hahead
  · exact .inl hbehind
  · obtain ⟨hcounts, hoffset⟩ := h.advance (min target c.size - c.offset)
    have hstart := hcounts.lineStart_le
    have hsize := h.size_eq
    refine .inr ⟨hahead, ?_⟩
    omega

/-- Whatever offsets a cursor locates one after the other, growing or not, repeated or past the end, it
answers as the direct computation does, and after any of them the next one is located without
subtracting too much. -/
theorem locateAll_ofBytes (bytes : List UInt8) (targets : List Nat) :
    ((ofBytes bytes).locateAll targets).2 = targets.map (ofOffset bytes) ∧
      ∀ before target, ((ofBytes bytes).locateAll before).1.SubtractsWithin target := by
  have hcounts := counts_ofBytes bytes
  refine ⟨(hcounts.locateAll targets).2, ?_⟩
  intro before target
  exact (hcounts.locateAll before).1.subtractsWithin target

end Cursor

end DocRules.Position
