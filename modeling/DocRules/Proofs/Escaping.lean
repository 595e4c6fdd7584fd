import DocRules.Markup.Tokenizer.Reference
import DocRules.Proofs.Cutting
import DocRules.Proofs.Draft

/-! # Values read back

A written value has a reference for each of the four characters that are replaced, and every other
character stands for itself. Resolving the references from left to right gives the value again, and
no quotation mark is left that could end it early. -/

namespace DocRules.Markup

/-! ## One character -/

theorem unescapeFrom_plain {c : Char} (hc : c ≠ '&') (size offset : Nat)
    (written text : List Char) :
    unescapeFrom size offset written (c :: text) =
      unescapeFrom size (offset + c.utf8Size) (c :: written) text := by
  rw [unescapeFrom, if_neg (by simpa using hc)]

theorem unescapeFrom_reference (name : List Char) {c : Char}
    (hname : name.all (fun d => d != '&' && d != ';') = true)
    (hc : ∀ start stop, resolveReference start stop name = .ok c) (size offset : Nat)
    (written text : List Char) :
    ∃ offset', unescapeFrom size offset written ('&' :: (name ++ ';' :: text)) =
      unescapeFrom size offset' (c :: written) text := by
  have hstop : ∀ d ∈ (';' :: text).head?, (d != '&' && d != ';') = false := by
    rintro d ⟨⟩
    rfl
  have hd := Text.dropWhile_append_of_head? (List.all_eq_true.1 hname) hstop
  rw [unescapeFrom, if_pos (beq_self_eq_true '&')]
  simp only
  split
  · rename_i rest h
    rw [hd] at h
    cases h
    rw [Text.takeWhile_append_of_head? (List.all_eq_true.1 hname) hstop, hc]
    exact ⟨_, rfl⟩
  · rename_i h
    exact absurd hd (h text)

theorem unescapeFrom_escapeChar (c : Char) (size offset : Nat) (written text : List Char) :
    ∃ offset', unescapeFrom size offset written (escapeChar c ++ text) =
      unescapeFrom size offset' (c :: written) text := by
  unfold escapeChar
  split
  · exact unescapeFrom_reference "amp".toList rfl (fun _ _ => rfl) ..
  · exact unescapeFrom_reference "lt".toList rfl (fun _ _ => rfl) ..
  · exact unescapeFrom_reference "gt".toList rfl (fun _ _ => rfl) ..
  · exact unescapeFrom_reference "quot".toList rfl (fun _ _ => rfl) ..
  · rename_i hc _ _ _
    exact ⟨_, unescapeFrom_plain hc size offset written text⟩

theorem quote_notMem_escapeChar (c : Char) : '"' ∉ escapeChar c := by
  unfold escapeChar
  split
  · decide
  · decide
  · decide
  · decide
  · rename_i hc
    simpa using Ne.symm hc

/-! ## Values -/

theorem unescapeFrom_flatMap_escapeChar (size offset : Nat) (written value : List Char) :
    unescapeFrom size offset written (value.flatMap escapeChar) =
      .ok (String.ofList (written.reverse ++ value)) := by
  induction value generalizing offset written with
  | nil => rw [List.flatMap_nil, unescapeFrom, List.append_nil]
  | cons c value ih =>
    obtain ⟨offset', h⟩ :=
      unescapeFrom_escapeChar c size offset written (value.flatMap escapeChar)
    rw [List.flatMap_cons, h, ih, List.reverse_cons, List.append_assoc, List.singleton_append]

/-- Reading a written value gives the value. -/
theorem unescape_escape (value : String) : unescape (escape value) = .ok value := by
  rw [unescape, escape, unescapeFrom_flatMap_escapeChar, List.reverse_nil, List.nil_append,
    String.ofList_toList]

theorem quote_notMem_escape (value : String) : '"' ∉ escape value := by
  rw [escape, List.mem_flatMap]
  rintro ⟨c, -, hc⟩
  exact quote_notMem_escapeChar c hc

end DocRules.Markup
