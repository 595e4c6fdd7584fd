import DocRules.Markup.Tokenizer.Lexeme

/-! # Where cuts fall

A text that was put together from a part, a mark and a rest is cut back into the part and the rest,
if the mark does not begin earlier. For the end of a tag this means that quotation marks in the
part come in pairs and that a closing bracket stands only between them. -/

namespace DocRules

namespace Text

variable {p : Char → Bool} {before rest : List Char}

/-! ## Stretches of characters -/

theorem takeWhile_append_of_head? (hb : ∀ c ∈ before, p c = true)
    (hr : ∀ c ∈ rest.head?, p c = false) : (before ++ rest).takeWhile p = before := by
  rw [List.takeWhile_append_of_pos hb]
  cases rest with
  | nil => simp
  | cons c rest => rw [List.takeWhile_cons, hr c rfl, if_neg Bool.false_ne_true, List.append_nil]

theorem dropWhile_append_of_head? (hb : ∀ c ∈ before, p c = true)
    (hr : ∀ c ∈ rest.head?, p c = false) : (before ++ rest).dropWhile p = rest := by
  rw [List.dropWhile_append_of_pos hb]
  cases rest with
  | nil => rfl
  | cons c rest => rw [List.dropWhile_cons, hr c rfl, if_neg Bool.false_ne_true]

/-! ## Marks -/

theorem bne_of_notMem {stop : Char} (h : stop ∉ before) : ∀ c ∈ before, (c != stop) = true := by
  intro c hc
  rw [bne_iff_ne]
  rintro rfl
  exact h hc

theorem cutAt_append {stop : Char} (h : stop ∉ before) :
    cutAt stop (before ++ stop :: rest) = some (before, rest) := by
  have hr : ∀ c ∈ (stop :: rest).head?, (c != stop) = false := by
    rintro c ⟨⟩
    rw [bne_self_eq_false]
  rw [cutAt, dropWhile_append_of_head? (bne_of_notMem h) hr,
    takeWhile_append_of_head? (bne_of_notMem h) hr]

theorem cutAt_eq_none {stop : Char} (h : stop ∉ before) : cutAt stop before = none := by
  rw [cutAt, ← List.append_nil before, dropWhile_append_of_head? (bne_of_notMem h) (by simp)]

theorem cutAtMark_append {c : Char} {mark : List Char} (h : c ∉ before) :
    cutAtMark (c :: mark) (before ++ (c :: mark ++ rest)) = some (before, rest) := by
  suffices hgo : ∀ passed, cutAtMark.go (c :: mark) passed (before ++ (c :: mark ++ rest)) =
      some (passed.reverse ++ before, rest) from hgo []
  induction before with
  | nil =>
    intro passed
    have hprefix : (c :: mark).isPrefixOf (c :: (mark ++ rest)) = true :=
      List.isPrefixOf_iff_prefix.2 ⟨rest, rfl⟩
    rw [List.nil_append, List.cons_append, cutAtMark.go, if_pos hprefix, List.append_nil,
      ← List.cons_append, List.drop_left]
  | cons d before ih =>
    intro passed
    rw [List.mem_cons, not_or] at h
    have hprefix : (c :: mark).isPrefixOf (d :: (before ++ (c :: mark ++ rest))) = false := by
      rw [List.isPrefixOf_cons_cons, beq_false_of_ne h.1, Bool.false_and]
    rw [List.cons_append, cutAtMark.go, hprefix, if_neg Bool.false_ne_true, ih h.2,
      List.reverse_cons, List.append_assoc, List.singleton_append]

theorem eq_append_of_afterMark? {mark text rest : List Char}
    (h : afterMark? mark text = some rest) : text = mark ++ rest := by
  induction mark generalizing text with
  | nil => exact Option.some.inj h
  | cons m mark ih =>
    cases text with
    | nil => simp [afterMark?] at h
    | cons c text =>
      rw [afterMark?] at h
      split at h
      · rename_i hm
        rw [ih h, beq_iff_eq.1 hm, List.cons_append]
      · contradiction

end Text

namespace Markup

/-! ## Ends of tags -/

/-- The end of a tag does not fall inside the text, and no quotation mark is open after it. -/
def Passes (text : List Char) : Prop :=
  ∀ before rest, cutTag.go none before (text ++ rest) =
    cutTag.go none (text.reverse ++ before) rest

theorem cutTag_append {text : List Char} (h : Passes text) (rest : List Char) :
    cutTag (text ++ '>' :: rest) = some (text, rest) := by
  rw [cutTag, h, List.append_nil, cutTag.go]
  simp

theorem Passes.nil : Passes [] := fun _ _ => rfl

theorem Passes.append {first second : List Char} (hf : Passes first) (hs : Passes second) :
    Passes (first ++ second) := by
  intro before rest
  rw [List.append_assoc, hf, hs, List.reverse_append, List.append_assoc]

theorem Passes.singleton {c : Char} (hend : c ≠ '>') (hquote : isQuote c = false) :
    Passes [c] := by
  intro before rest
  rw [List.singleton_append, cutTag.go]
  simp [hend, hquote]

theorem Passes.plain {text : List Char} (h : ∀ c ∈ text, c ≠ '>' ∧ isQuote c = false) :
    Passes text := by
  induction text with
  | nil => exact .nil
  | cons c text ih =>
    have ⟨hend, hquote⟩ := h c List.mem_cons_self
    exact (Passes.singleton hend hquote).append (ih fun d hd => h d (List.mem_cons_of_mem c hd))

theorem Passes.quoted {q : Char} {text : List Char} (hq : isQuote q = true) (hend : q ≠ '>')
    (h : q ∉ text) : Passes (q :: (text ++ [q])) := by
  -- behind the opening mark everything is passed up to the closing one
  have hinside : ∀ before rest, cutTag.go (some q) before (text ++ q :: rest) =
      cutTag.go none (q :: (text.reverse ++ before)) rest := by
    induction text with
    | nil =>
      intro before rest
      simp [cutTag.go]
    | cons c text ih =>
      intro before rest
      rw [List.mem_cons, not_or] at h
      rw [List.cons_append, cutTag.go]
      simp only [beq_iff_eq, Ne.symm h.1, if_false]
      rw [ih h.2]
      simp
  intro before rest
  rw [List.cons_append, List.append_assoc, List.singleton_append, cutTag.go]
  simp only [beq_iff_eq, hend, if_false, hq, if_true]
  rw [hinside]
  simp

end Markup

end DocRules
