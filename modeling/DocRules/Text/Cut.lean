/-! # Cutting a text at a mark

The cuts stop at the first occurrence of the mark. The mark belongs to neither part, so what
follows it is strictly shorter than the text: this is what lets a reader that cuts repeatedly
terminate. -/

namespace DocRules.Text

def cutAt (stop : Char) (text : List Char) : Option (List Char × List Char) :=
  match text.dropWhile (· != stop) with
  | [] => none
  | _ :: rest => some (text.takeWhile (· != stop), rest)

/-- Splits at the first place where all of `mark` follows. -/
def cutAtMark (mark text : List Char) : Option (List Char × List Char) :=
  go [] text
where
  /-- Here `before` is the text already passed, last character first. -/
  go (before : List Char) : List Char → Option (List Char × List Char)
    | [] => none
    | c :: rest =>
      if mark.isPrefixOf (c :: rest) then some (before.reverse, (c :: rest).drop mark.length)
      else go (c :: before) rest

/-- What follows `mark` in a text that begins with it. -/
def afterMark? : List Char → List Char → Option (List Char)
  | [], text => some text
  | _ :: _, [] => none
  | m :: mark, c :: text => if m == c then afterMark? mark text else none

theorem length_le_of_afterMark? {mark text rest : List Char}
    (h : afterMark? mark text = some rest) : rest.length ≤ text.length := by
  induction mark generalizing text with
  | nil =>
    cases h
    exact Nat.le_refl _
  | cons m mark ih =>
    cases text with
    | nil => simp [afterMark?] at h
    | cons c text =>
      simp only [afterMark?] at h
      split at h
      · have := ih h
        simp only [List.length_cons]
        omega
      · contradiction

theorem length_dropWhile_le (p : Char → Bool) (text : List Char) :
    (text.dropWhile p).length ≤ text.length :=
  (List.dropWhile_sublist p).length_le

theorem length_lt_of_dropWhile {p : Char → Bool} {text rest : List Char} {c : Char}
    (h : text.dropWhile p = c :: rest) : rest.length < text.length := by
  have := length_dropWhile_le p text
  rw [h] at this
  exact this

theorem length_lt_of_cutAt {stop : Char} {text before rest : List Char}
    (h : cutAt stop text = some (before, rest)) : rest.length < text.length := by
  unfold cutAt at h
  split at h
  · contradiction
  · rename_i c r hd
    simp only [Option.some.injEq, Prod.mk.injEq] at h
    rw [← h.2]
    exact length_lt_of_dropWhile hd

theorem cutAtMark.length_le_of_go {mark before text a rest : List Char}
    (h : go mark before text = some (a, rest)) : rest.length ≤ text.length := by
  induction text generalizing before with
  | nil => simp [go] at h
  | cons c text ih =>
    unfold go at h
    split at h
    · simp only [Option.some.injEq, Prod.mk.injEq] at h
      rw [← h.2, List.length_drop]
      omega
    · have := ih h
      simp only [List.length_cons]
      omega

theorem length_le_of_cutAtMark {mark text before rest : List Char}
    (h : cutAtMark mark text = some (before, rest)) : rest.length ≤ text.length :=
  cutAtMark.length_le_of_go h

end DocRules.Text
