import DocRules.Proofs.Template
import DocRules.Workspace

/-! # Unclosed references

Substitution meets an unclosed opening after it has gone through the references before it. Yet which
one it is can be told from the text alone: the first one behind the last closing brace. -/

namespace DocRules

namespace Substitution

/-- What follows the last closing brace, or the whole text if there is none. -/
def openPart (text : List Char) : List Char := (text.reverse.takeWhile (· != '\x7d')).reverse

/-- The text goes on behind `before` with the first opening after the last closing brace. -/
def FirstUnclosed (text before : List Char) : Prop :=
  (∃ after, text = before ++ (opening ++ after) ∧ '\x7d' ∉ after) ∧
    ¬ opening <:+: openPart before

/-! ## The open part -/

theorem openPart_append_brace (before after : List Char) :
    openPart (before ++ '\x7d' :: after) = openPart after := by
  rw [openPart, openPart, List.reverse_append, List.reverse_cons, List.append_assoc]
  congr 1
  induction after.reverse with
  | nil => rfl
  | cons c text ih =>
    rw [List.cons_append, List.takeWhile_cons, List.takeWhile_cons, ih]

theorem openPart_append {before after : List Char} (h : '\x7d' ∉ after) :
    openPart (before ++ after) = openPart before ++ after := by
  have hr : ∀ c ∈ after.reverse, (c != '\x7d') = true :=
    Text.bne_of_notMem (mt List.mem_reverse.1 h)
  rw [openPart, List.reverse_append, List.takeWhile_append_of_pos hr, List.reverse_append,
    List.reverse_reverse, openPart]

theorem openPart_suffix (text : List Char) : openPart text <:+ text := by
  have hp := List.takeWhile_prefix (fun c => c != '\x7d') (l := text.reverse)
  rwa [← List.reverse_suffix, List.reverse_reverse] at hp

/-- What follows the last closing brace of a template lies in its last literal. -/
theorem not_opening_openPart_written (t : Template) : ¬ opening <:+: openPart t.written := by
  induction t with
  | last literal =>
    exact fun h => literal.property (h.trans (openPart_suffix _).isInfix)
  | next literal key rest ih =>
    rw [Template.written, ← List.append_assoc, ← List.append_assoc, openPart_append_brace]
    exact ih

/-- Behind a template the first opening that is not closed is the first one after the last brace. -/
theorem firstUnclosed_written (t : Template) {rest : List Char} (h : '\x7d' ∉ rest) :
    FirstUnclosed (t.written ++ (opening ++ rest)) t.written :=
  ⟨⟨rest, rfl, h⟩, not_opening_openPart_written t⟩

theorem opening_openPart {before after : List Char} (h : '\x7d' ∉ after) :
    opening <:+: openPart (before ++ (opening ++ after)) := by
  have hopen : '\x7d' ∉ opening ++ after := by simpa [opening] using h
  rw [openPart_append hopen, ← List.append_assoc]
  exact List.infix_append _ _ _

theorem exists_written_iff {text : List Char} :
    (∃ t : Template, t.written = text) ↔ ¬ opening <:+: openPart text := by
  constructor
  · rintro ⟨t, rfl⟩
    exact not_opening_openPart_written t
  · intro hno
    rcases Template.written_or_unclosed text with hclosed | ⟨t, rest, hr, rfl⟩
    · exact hclosed
    · exact absurd (opening_openPart hr) hno

/-! ## Failures -/

variable (properties : Table String) (environment : String → Option String) {value : String}

theorem expand_of_firstUnclosed {before : List Char} (h : FirstUnclosed value.toList before) :
    expand properties environment value = .error ⟨value, Text.byteLength before⟩ := by
  obtain ⟨⟨after, hvalue, hafter⟩, hfirst⟩ := h
  obtain ⟨t, rfl⟩ := exists_written_iff.2 hfirst
  exact expand_written_unclosed hafter hvalue.symm

theorem exists_firstUnclosed (h : opening <:+: openPart value.toList) :
    ∃ before, FirstUnclosed value.toList before := by
  rcases Template.written_or_unclosed value.toList with hclosed | ⟨t, rest, hr, ht⟩
  · exact absurd h (exists_written_iff.1 hclosed)
  · exact ⟨t.written, ht ▸ firstUnclosed_written t hr⟩

theorem expand_of_not_opening (h : ¬ opening <:+: openPart value.toList) :
    ∃ text, expand properties environment value = .ok text := by
  obtain ⟨t, ht⟩ := exists_written_iff.2 h
  exact ⟨_, expand_written ht⟩

variable {properties environment} in
theorem opening_of_error {fault : Unclosed}
    (h : expand properties environment value = .error fault) :
    opening <:+: openPart value.toList := by
  apply Classical.byContradiction
  intro hno
  obtain ⟨text, ht⟩ := expand_of_not_opening properties environment hno
  rw [ht] at h
  contradiction

end Substitution

namespace Workspace

variable {α : Type} (w : Workspace α) (environment : String → Option String) {value : String}

def expansionFault (w : Workspace α) (fault : Substitution.Unclosed) : LogItem :=
  ⟨.error, "Variable substitution failed", some fault.message, w.position⟩

theorem expand_of_error {fault : Substitution.Unclosed}
    (h : Substitution.expand w.properties environment value = .error fault) :
    w.expand environment value = (value, w.record (w.expansionFault fault)) := by
  rw [expand, h]
  rfl

theorem expand_of_ok {text : String}
    (h : Substitution.expand w.properties environment value = .ok text) :
    w.expand environment value = (text, w) := by
  rw [expand, h]

end Workspace

namespace Substitution

/-- Substitution fails just if an opening follows the last closing brace, and reports the value with
the byte offset of the first such opening. A workspace then returns the value as it is and has one
more entry in its log; after a success it is what it was. -/
theorem expand_unclosed {α : Type} (properties : Table String)
    (environment : String → Option String) (value : String) :
    ((∃ fault, expand properties environment value = .error fault) ↔
      opening <:+: openPart value.toList) ∧
    (∀ fault, expand properties environment value = .error fault ↔
      ∃ before, FirstUnclosed value.toList before ∧ fault = ⟨value, Text.byteLength before⟩) ∧
    ∀ w : Workspace α,
      (opening <:+: openPart value.toList →
        ∃ before, FirstUnclosed value.toList before ∧
          w.expand environment value = (value, { w with
            log := w.log ++ [w.expansionFault ⟨value, Text.byteLength before⟩] })) ∧
      (¬ opening <:+: openPart value.toList →
        ∃ text, w.expand environment value = (text, w)) := by
  refine ⟨⟨?_, fun h => ?_⟩, fun fault => ⟨fun h => ?_, ?_⟩, fun w => ⟨fun h => ?_, fun h => ?_⟩⟩
  · rintro ⟨fault, hf⟩
    exact opening_of_error hf
  · obtain ⟨before, hb⟩ := exists_firstUnclosed h
    exact ⟨_, expand_of_firstUnclosed properties environment hb⟩
  · obtain ⟨before, hb⟩ := exists_firstUnclosed (opening_of_error h)
    rw [expand_of_firstUnclosed properties environment hb] at h
    exact ⟨before, hb, (Except.error.inj h).symm⟩
  · rintro ⟨before, hb, rfl⟩
    exact expand_of_firstUnclosed properties environment hb
  · obtain ⟨before, hb⟩ := exists_firstUnclosed h
    have he := expand_of_firstUnclosed w.properties environment hb
    exact ⟨before, hb, w.expand_of_error environment he⟩
  · obtain ⟨text, ht⟩ := expand_of_not_opening w.properties environment h
    exact ⟨text, w.expand_of_ok environment ht⟩

end Substitution

end DocRules
