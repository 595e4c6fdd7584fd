import DocRules.Proofs.Cutting
import DocRules.Substitution

/-! # Templates

A text whose references are all closed is taken apart into literals and keys in just one way. Those
are the texts that substitution succeeds on, and it writes the values of the keys between the
literals. -/

namespace DocRules.Substitution

def opening : List Char := ['$', '\x7b']

/-- A stretch of text in which no reference begins. -/
abbrev Literal := { letters : List Char // ¬ opening <:+: letters }

/-- What stands between the braces of a reference. It may hold an opening. -/
abbrev Key := { letters : List Char // '\x7d' ∉ letters }

/-- Literals with references between them. -/
inductive Template where
  | last (literal : Literal)
  | next (literal : Literal) (key : Key) (rest : Template)

namespace Template

def written : Template → List Char
  | last literal => literal.val
  | next literal key rest => literal.val ++ (opening ++ (key.val ++ '\x7d' :: rest.written))

def filled (value : String → String) : Template → List Char
  | last literal => literal.val
  | next literal key rest =>
    literal.val ++ ((value (String.ofList key.val)).toList ++ rest.filled value)

end Template

/-- The value written for a key: that of the property, else that of the environment variable if the
key can name one, else nothing. -/
def replacement (properties : Table String) (environment : String → Option String)
    (key : String) : String :=
  (properties.get? key).getD <|
    if key ≠ "" ∧ '=' ∉ key.toList ∧ '\x00' ∉ key.toList then (environment key).getD "" else ""

theorem getD_lookup (properties : Table String) (environment : String → Option String)
    (key : String) :
    (lookup properties environment key).getD "" = replacement properties environment key := by
  rw [lookup, replacement]
  cases properties.get? key with
  | some value => rfl
  | none =>
    have hbad : (key.isEmpty || key.toList.contains '=' || key.toList.contains '\x00') = true ↔
        ¬ (key ≠ "" ∧ '=' ∉ key.toList ∧ '\x00' ∉ key.toList) := by
      simp [Decidable.or_iff_not_imp_left]
    by_cases h : key ≠ "" ∧ '=' ∉ key.toList ∧ '\x00' ∉ key.toList
    · simp only [if_neg (mt hbad.1 (not_not_intro h)), if_pos h, Option.getD_none]
    · simp only [if_pos (hbad.2 h), if_neg h, Option.getD_none]

/-! ## Openings -/

/-- An opening does not begin inside of another one. -/
theorem opening_prefix_append {text rest : List Char} (ht : text ≠ [])
    (hr : rest = [] ∨ opening <+: rest) (h : opening <+: text ++ rest) : opening <+: text := by
  obtain ⟨tail, htail⟩ := h
  match text, ht with
  | [c], _ =>
    rcases hr with rfl | ⟨more, rfl⟩ <;> simp [opening] at htail
  | c :: d :: text, _ =>
    simp only [opening, List.cons_append, List.nil_append, List.cons.injEq] at htail
    obtain ⟨rfl, rfl, -⟩ := htail
    exact ⟨text, rfl⟩

/-- A text either has no opening or goes on behind a literal with the first one. -/
theorem literal_or_opening (text : List Char) :
    ¬ opening <:+: text ∨
      ∃ (literal : Literal) (rest : List Char), text = literal.val ++ (opening ++ rest) := by
  induction text with
  | nil => exact .inl (by simp [opening])
  | cons c text ih =>
    by_cases hp : opening <+: c :: text
    · obtain ⟨rest, hr⟩ := hp
      exact .inr ⟨⟨[], by simp [opening]⟩, rest, hr.symm⟩
    · rcases ih with hnone | ⟨literal, rest, rfl⟩
      · exact .inl fun h => (List.infix_cons_iff.1 h).elim hp hnone
      · refine .inr ⟨⟨c :: literal.val, fun h => ?_⟩, rest, rfl⟩
        rcases List.infix_cons_iff.1 h with hstart | hinside
        · exact hp (hstart.trans ⟨opening ++ rest, rfl⟩)
        · exact literal.property hinside

/-- Where a literal ends is determined by the text. -/
theorem length_literal_le {first second : Literal} {rest other : List Char}
    (h : first.val ++ (opening ++ rest) = second.val ++ (opening ++ other)) :
    second.val.length ≤ first.val.length := by
  rcases List.append_eq_append_iff.1 h with ⟨between, hs, hr⟩ | ⟨between, hf, -⟩
  · cases between with
    | nil =>
      have hsame : second.val = first.val := hs.trans (List.append_nil _)
      exact Nat.le_of_eq (congrArg List.length hsame)
    | cons c between =>
      -- the opening would begin inside of the longer literal
      have hin : opening <+: c :: between :=
        opening_prefix_append (List.cons_ne_nil _ _) (.inr ⟨other, rfl⟩) ⟨rest, hr⟩
      refine absurd ?_ second.property
      rw [hs]
      exact hin.isInfix.trans (List.suffix_append _ _).isInfix
  · rw [hf, List.length_append]
    exact Nat.le_add_right _ _

namespace Template

/-! ## Taking texts apart -/

/-- A template is determined by its text. -/
theorem written_injective : Function.Injective written := by
  intro t u h
  induction t generalizing u with
  | last literal =>
    cases u with
    | last other => exact congrArg last (Subtype.ext h)
    | next other key rest =>
      refine absurd ?_ literal.property
      have hw : literal.val = other.val ++ (opening ++ (key.val ++ '\x7d' :: rest.written)) := h
      rw [hw, ← List.append_assoc]
      exact List.infix_append _ _ _
  | next literal key rest ih =>
    cases u with
    | last other =>
      refine absurd ?_ other.property
      have hw : literal.val ++ (opening ++ (key.val ++ '\x7d' :: rest.written)) = other.val := h
      rw [← hw, ← List.append_assoc]
      exact List.infix_append _ _ _
    | next other second more =>
      have hw : literal.val ++ (opening ++ (key.val ++ '\x7d' :: rest.written)) =
          other.val ++ (opening ++ (second.val ++ '\x7d' :: more.written)) := h
      have hlength := Nat.le_antisymm (length_literal_le hw.symm) (length_literal_le hw)
      obtain ⟨hliteral, hbehind⟩ := List.append_inj hw hlength
      have hcut := congrArg (Text.cutAt '\x7d') (List.append_cancel_left hbehind)
      rw [Text.cutAt_append key.property, Text.cutAt_append second.property] at hcut
      obtain ⟨hkey, hrest⟩ := Prod.mk.inj (Option.some.inj hcut)
      rw [Subtype.ext hliteral, Subtype.ext hkey, ih hrest]

/-- Every text is that of a template, or goes on behind one with an opening that is never closed. -/
theorem written_or_unclosed (text : List Char) :
    (∃ t : Template, t.written = text) ∨
      ∃ (t : Template) (rest : List Char), '\x7d' ∉ rest ∧
        t.written ++ (opening ++ rest) = text := by
  rcases literal_or_opening text with hnone | ⟨literal, rest, rfl⟩
  · exact .inl ⟨last ⟨text, hnone⟩, rfl⟩
  · by_cases hclosed : '\x7d' ∈ rest
    · obtain ⟨key, after, rfl, hkey⟩ := List.eq_append_cons_of_mem hclosed
      rcases written_or_unclosed after with ⟨t, rfl⟩ | ⟨t, tail, htail, rfl⟩
      · exact .inl ⟨next literal ⟨key, hkey⟩ t, rfl⟩
      · exact .inr ⟨next literal ⟨key, hkey⟩ t, tail, htail, by simp [written]⟩
    · exact .inr ⟨last literal, rest, hclosed, rfl⟩
termination_by text.length
decreasing_by
  simp only [*, List.length_append, List.length_cons]
  omega

end Template

/-! ## Expanding -/

section Expanding

variable (value? : String → Option String) (offset : Nat) (before : List Char)

theorem expandFrom_nil :
    expandFrom value? offset before [] = .ok (String.ofList before.reverse) := by
  rw [expandFrom]

theorem expandFrom_unclosed {rest : List Char} (h : '\x7d' ∉ rest) :
    expandFrom value? offset before (opening ++ rest) = .error offset := by
  rw [opening, List.cons_append, List.singleton_append, expandFrom]
  split
  · rfl
  · rename_i key after hcut
    rw [Text.cutAt_eq_none h] at hcut
    contradiction

theorem expandFrom_reference (key : Key) (after : List Char) :
    expandFrom value? offset before (opening ++ (key.val ++ '\x7d' :: after)) =
      expandFrom value? (offset + 3 + Text.byteLength key.val)
        (((value? (String.ofList key.val)).getD "").toList.reverse ++ before) after := by
  rw [opening, List.cons_append, List.singleton_append, expandFrom]
  split
  · rename_i hcut
    rw [Text.cutAt_append key.property] at hcut
    contradiction
  · rename_i name rest hcut
    rw [Text.cutAt_append key.property] at hcut
    obtain ⟨rfl, rfl⟩ := Prod.mk.inj (Option.some.inj hcut)
    simp only [List.reverseAux_eq]

theorem expandFrom_plain {c : Char} {text : List Char} (h : ¬ opening <+: c :: text) :
    expandFrom value? offset before (c :: text) =
      expandFrom value? (offset + c.utf8Size) (c :: before) text := by
  rw [expandFrom]
  rintro rest rfl rfl
  exact h ⟨rest, rfl⟩

theorem expandFrom_literal (literal : Literal) {rest : List Char}
    (hr : rest = [] ∨ opening <+: rest) :
    expandFrom value? offset before (literal.val ++ rest) =
      expandFrom value? (offset + Text.byteLength literal.val) (literal.val.reverse ++ before)
        rest := by
  obtain ⟨letters, hplain⟩ := literal
  induction letters generalizing offset before with
  | nil => rfl
  | cons c letters ih =>
    rw [List.infix_cons_iff, not_or] at hplain
    have hp : ¬ opening <+: c :: (letters ++ rest) := fun h =>
      hplain.1 (opening_prefix_append (List.cons_ne_nil _ _) hr h)
    rw [List.cons_append, expandFrom_plain value? offset before hp, ih _ _ hplain.2]
    simp only [Text.byteLength_cons, Nat.add_assoc, List.reverse_cons, List.append_assoc,
      List.singleton_append]

/-- Expanding goes through a template, whatever begins behind it. -/
theorem expandFrom_written (t : Template) {rest : List Char} (hr : rest = [] ∨ opening <+: rest) :
    expandFrom value? offset before (t.written ++ rest) =
      expandFrom value? (offset + Text.byteLength t.written)
        ((t.filled fun key => (value? key).getD "").reverse ++ before) rest := by
  induction t generalizing offset before with
  | last literal => exact expandFrom_literal value? offset before literal hr
  | next literal key t ih =>
    rw [Template.written, Template.filled, List.append_assoc, List.append_assoc, List.append_assoc,
      List.cons_append, expandFrom_literal _ _ _ _ (.inr ⟨_, rfl⟩), expandFrom_reference, ih]
    congr 1
    · have hdollar : '$'.utf8Size = 1 := rfl
      have hleft : '\x7b'.utf8Size = 1 := rfl
      have hright : '\x7d'.utf8Size = 1 := rfl
      simp only [opening, Text.byteLength_append, Text.byteLength_cons, Text.byteLength_nil]
      omega
    · simp only [List.reverse_append, List.append_assoc]

end Expanding

section Expand

variable {properties : Table String} {environment : String → Option String} {value : String}

theorem expand_written {t : Template} (ht : t.written = value.toList) :
    expand properties environment value =
      .ok (String.ofList (t.filled (replacement properties environment))) := by
  have hreplace : (fun key => (lookup properties environment key).getD "") =
      replacement properties environment := funext (getD_lookup properties environment)
  have hgo := expandFrom_written (lookup properties environment) 0 [] t (.inl rfl)
  rw [List.append_nil, List.append_nil, hreplace, expandFrom_nil, List.reverse_reverse] at hgo
  rw [expand, ← ht, hgo]

theorem expand_written_unclosed {t : Template} {rest : List Char} (hr : '\x7d' ∉ rest)
    (ht : t.written ++ (opening ++ rest) = value.toList) :
    expand properties environment value = .error ⟨value, Text.byteLength t.written⟩ := by
  have hgo := expandFrom_written (lookup properties environment) 0 [] t
    (.inr (List.prefix_append opening rest))
  rw [expandFrom_unclosed _ _ _ hr, Nat.zero_add] at hgo
  rw [expand, ← ht, hgo]

end Expand

/-- Substitution succeeds just on the texts of templates. Such a text is that of one template only,
and its references are replaced, each by the value of its key. What is written for a key is not
looked at again. -/
theorem expand_eq_filled (properties : Table String) (environment : String → Option String)
    (value : String) :
    ((∃ text, expand properties environment value = .ok text) ↔
      ∃ t : Template, t.written = value.toList) ∧
    (∀ t u : Template, t.written = value.toList → u.written = value.toList → t = u) ∧
    ∀ t : Template, t.written = value.toList →
      expand properties environment value =
        .ok (String.ofList (t.filled (replacement properties environment))) := by
  refine ⟨⟨?_, ?_⟩, ?_, fun t ht => expand_written ht⟩
  · rintro ⟨text, htext⟩
    rcases Template.written_or_unclosed value.toList with hclosed | ⟨t, rest, hr, ht⟩
    · exact hclosed
    · rw [expand_written_unclosed hr ht] at htext
      contradiction
  · rintro ⟨t, ht⟩
    exact ⟨_, expand_written ht⟩
  · intro t u ht hu
    exact Template.written_injective (ht.trans hu.symm)

example : expand (Table.empty.insert "a" "$\x7bb\x7d") (fun _ => none) "<$\x7ba\x7d$>" =
    .ok "<$\x7bb\x7d$>" := by
  cbv

end DocRules.Substitution
