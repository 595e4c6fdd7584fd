import DocRules.Proofs.Cutting
import DocRules.Proofs.Halting
import DocRules.Proofs.Lexing

/-! # Lexemes span the text

A lexeme is a piece of the text: as many bytes as it is wide lie between its two offsets, the rest is
read on from behind it, and what it says of a tag or of a document type is what is written in the
piece. Nothing of the text is read twice, and nothing but blanks is left out between two lexemes. -/

namespace DocRules

namespace Text

theorem cutAtMark.eq_append_of_go {mark before text first rest : List Char}
    (h : go mark before text = some (first, rest)) :
    before.reverse ++ text = first ++ (mark ++ rest) := by
  induction text generalizing before with
  | nil => simp [go] at h
  | cons c text ih =>
    unfold go at h
    split at h
    · rename_i hp
      obtain ⟨rfl, rfl⟩ := Prod.mk.inj (Option.some.inj h)
      rw [List.prefix_iff_eq_append.1 (List.isPrefixOf_iff_prefix.1 hp)]
    · rw [← ih h, List.reverse_cons, List.append_assoc, List.singleton_append]

theorem eq_append_of_cutAtMark {mark text first rest : List Char}
    (h : cutAtMark mark text = some (first, rest)) : text = first ++ (mark ++ rest) :=
  cutAtMark.eq_append_of_go h

theorem dropTrailing_append (p : Char → Bool) (text : List Char) :
    ∃ dropped, (∀ c ∈ dropped, p c = true) ∧ text = dropTrailing p text ++ dropped := by
  refine ⟨(text.reverse.takeWhile p).reverse, fun c hc => ?_, ?_⟩
  · exact List.all_eq_true.1 List.all_takeWhile c (List.mem_reverse.1 hc)
  · rw [dropTrailing, ← List.reverse_append, List.takeWhile_append_dropWhile, List.reverse_reverse]

theorem utf8Size_toUpper (c : Char) : c.toUpper.utf8Size = c.utf8Size := by
  unfold Char.toUpper
  split
  · rename_i h
    -- a letter with an upper case of its own is one byte long, as that is
    obtain ⟨hlow, hhigh⟩ := h
    rw [UInt32.le_iff_toNat_le] at hlow hhigh
    have hc : c.utf8Size = 1 :=
      Char.utf8Size_eq_one_iff.2 (UInt32.le_iff_toNat_le.2 (Nat.le_trans hhigh (by decide)))
    have hshift : ('A'.val - 'a'.val).toNat = 2 ^ 32 - 32 := by decide
    have ha : 'a'.val.toNat = 97 := by decide
    have hz : 'z'.val.toNat = 122 := by decide
    have hbound : (127 : UInt32).toNat = 127 := by decide
    rw [hc, Char.utf8Size_eq_one_iff, UInt32.le_iff_toNat_le, UInt32.toNat_add, hshift]
    omega
  · rfl

theorem byteLength_map_toUpper (text : List Char) :
    byteLength (text.map Char.toUpper) = byteLength text := by
  induction text with
  | nil => rfl
  | cons c text ih => rw [List.map_cons, byteLength_cons, byteLength_cons, utf8Size_toUpper, ih]

theorem byteLength_pos {text : List Char} (h : text ≠ []) : 0 < byteLength text := by
  obtain ⟨c, rest, rfl⟩ := List.exists_cons_of_ne_nil h
  rw [byteLength_cons]
  exact Nat.add_pos_left c.utf8Size_pos _

end Text

namespace Markup

open Text

/-! ## Ends of tags and declarations -/

theorem cutTag.eq_append_of_go {quote : Option Char} {before text first rest : List Char}
    (h : go quote before text = some (first, rest)) :
    before.reverse ++ text = first ++ '>' :: rest := by
  induction text generalizing quote before with
  | nil => simp [go] at h
  | cons c text ih =>
    have hpass : before.reverse ++ c :: text = (c :: before).reverse ++ text := by simp
    unfold go at h
    split at h
    · rw [hpass, ih h]
    · split at h
      · rename_i hc
        obtain ⟨rfl, rfl⟩ := Prod.mk.inj (Option.some.inj h)
        rw [beq_iff_eq.1 hc]
      · rw [hpass, ih h]

theorem cutBracket.eq_append_of_go {inner : Nat} {before text first rest : List Char}
    (h : go inner before text = some (first, rest)) :
    before.reverse ++ text = first ++ '>' :: rest := by
  induction text generalizing inner before with
  | nil => simp [go] at h
  | cons c text ih =>
    have hpass : before.reverse ++ c :: text = (c :: before).reverse ++ text := by simp
    unfold go at h
    split at h
    · rename_i hc
      split at h
      · obtain ⟨rfl, rfl⟩ := Prod.mk.inj (Option.some.inj h)
        rw [beq_iff_eq.1 hc]
      · rw [hpass, ih h]
    · rw [hpass, ih h]

theorem endTagName_append (content : List Char) :
    ∃ blanks, (∀ c ∈ blanks, isBlank c = true) ∧ content = endTagName content ++ blanks := by
  unfold endTagName
  split
  · exact ⟨[], by simp, (List.append_nil _).symm⟩
  · exact dropTrailing_append isBlank content

/-! ## What is scanned -/

/-- The lexeme is written as `piece`. One that carries no event may be written in many ways. -/
def Lexeme.IsWritten (piece : List Char) : Lexeme → Prop
  | .startTag content => piece = '<' :: (content ++ ['>'])
  | .emptyTag content => piece = '<' :: (content ++ ['/', '>'])
  | .endTag name => ∃ blanks, (∀ c ∈ blanks, isBlank c = true) ∧
      piece = '<' :: '/' :: (name ++ blanks ++ ['>'])
  | .doctype content => ∃ keyword, piece = '<' :: '!' :: (keyword ++ content ++ ['>'])
  | .silent => piece ≠ []

theorem Lexeme.IsWritten.ne_nil {piece : List Char} {lexeme : Lexeme}
    (h : lexeme.IsWritten piece) : piece ≠ [] := by
  cases lexeme with
  | startTag content => exact h ▸ List.cons_ne_nil _ _
  | emptyTag content => exact h ▸ List.cons_ne_nil _ _
  | endTag name =>
    obtain ⟨blanks, -, rfl⟩ := h
    exact List.cons_ne_nil _ _
  | doctype content =>
    obtain ⟨keyword, rfl⟩ := h
    exact List.cons_ne_nil _ _
  | silent => exact h

/-- The scan is of the piece that the text begins with. -/
structure Scan.Takes (s : Scan) (text piece : List Char) : Prop where
  text_eq : text = piece ++ s.rest
  width_eq : s.width = byteLength piece
  written : s.lexeme.IsWritten piece

section Scans

variable {text : List Char} {s : Scan}

theorem takes_scanTag (h : scanTag text = .ok s) : ∃ piece, s.Takes ('<' :: text) piece := by
  unfold scanTag at h
  split at h
  · contradiction
  · rename_i content rest hc
    cases h
    have htext : text = content ++ '>' :: rest := cutTag.eq_append_of_go hc
    refine ⟨'<' :: (content ++ ['>']), ?_, ?_, ?_⟩
    · rw [htext, List.cons_append, List.append_assoc, List.singleton_append]
    · simp only [byteLength_cons, byteLength_append, byteLength_nil]
      have hopen : '<'.utf8Size = 1 := rfl
      have hclose : '>'.utf8Size = 1 := rfl
      omega
    · simp only
      split
      · rename_i name
        obtain ⟨blanks, hblanks, hname⟩ := endTagName_append name
        refine ⟨blanks, hblanks, ?_⟩
        rw [← hname, List.cons_append]
      · split
        · rename_i hlast
          obtain ⟨attributes, rfl⟩ := List.getLast?_eq_some_iff.1 (beq_iff_eq.1 hlast)
          rw [Lexeme.IsWritten, List.dropLast_concat, List.append_assoc]
          rfl
        · rfl

theorem takes_scanCharacterData (h : scanCharacterData text = .ok s) :
    ∃ piece, s.Takes ('<' :: '!' :: '[' :: text) piece := by
  unfold scanCharacterData at h
  split at h
  · contradiction
  · rename_i body hb
    split at h
    · contradiction
    · rename_i content rest hc
      cases h
      refine ⟨"<![CDATA[".toList ++ content ++ "]]>".toList, ?_, ?_, ?_⟩
      · rw [eq_append_of_afterMark? hb, eq_append_of_cutAtMark hc]
        simp
      · simp only [byteLength_append]
        have hopen : byteLength "<![CDATA[".toList = 9 := by decide
        have hclose : byteLength "]]>".toList = 3 := by decide
        omega
      · simp [Lexeme.IsWritten]

theorem takes_scanComment (h : scanComment text = .ok s) :
    ∃ piece, s.Takes ('<' :: '!' :: '-' :: text) piece := by
  unfold scanComment at h
  split at h
  · rename_i body
    split at h
    · contradiction
    · rename_i content rest hc
      cases h
      refine ⟨"<!--".toList ++ content ++ "-->".toList, ?_, ?_, ?_⟩
      · rw [eq_append_of_cutAtMark hc]
        simp
      · simp only [byteLength_append]
        have hopen : byteLength "<!--".toList = 4 := by decide
        have hclose : byteLength "-->".toList = 3 := by decide
        omega
      · simp [Lexeme.IsWritten]
  · contradiction

theorem takes_scanDoctype {letter : Char} (hl : letter.utf8Size = 1) (h : scanDoctype text = .ok s) :
    ∃ piece, s.Takes ('<' :: '!' :: letter :: text) piece := by
  unfold scanDoctype at h
  split at h
  · rename_i hkeyword
    have hwidth : byteLength (text.take 6) = 6 := by
      rw [← byteLength_map_toUpper, hkeyword]
      decide
    split at h
    · contradiction
    · rename_i content rest hc
      have htext : text.drop 6 = content ++ '>' :: rest := cutBracket.eq_append_of_go hc
      split at h
      · contradiction
      · cases h
        have hcontent := List.takeWhile_append_dropWhile (p := isBlank) (l := content)
        refine ⟨'<' :: '!' :: letter :: (text.take 6 ++ content ++ ['>']), ?_, ?_, ?_⟩
        · simp only [List.cons_append, List.append_assoc, List.nil_append]
          rw [← htext, List.take_append_drop]
        · simp only [byteLength_cons, byteLength_append, byteLength_nil]
          have hopen : '<'.utf8Size = 1 := rfl
          have hmark : '!'.utf8Size = 1 := rfl
          have hclose : '>'.utf8Size = 1 := rfl
          omega
        · refine ⟨letter :: (text.take 6 ++ content.takeWhile isBlank), ?_⟩
          simp [hcontent]
  · contradiction

theorem takes_scanInstruction (h : scanInstruction text = .ok s) :
    ∃ piece, s.Takes ('<' :: '?' :: text) piece := by
  unfold scanInstruction at h
  split at h
  · contradiction
  · split at h
    · contradiction
    · rename_i content rest hc
      cases h
      refine ⟨"<?".toList ++ content ++ "?>".toList, ?_, ?_, ?_⟩
      · rw [eq_append_of_cutAtMark hc]
        simp
      · simp only [byteLength_append]
        have hopen : byteLength "<?".toList = 2 := by decide
        have hclose : byteLength "?>".toList = 2 := by decide
        omega
      · simp [Lexeme.IsWritten]

theorem takes_scanMarkup (h : scanMarkup text = .ok s) :
    ∃ piece, s.Takes ('<' :: text) piece := by
  unfold scanMarkup at h
  split at h
  · contradiction
  · exact takes_scanCharacterData h
  · exact takes_scanComment h
  · exact takes_scanDoctype rfl h
  · exact takes_scanDoctype rfl h
  · contradiction
  · exact takes_scanInstruction h
  · exact takes_scanTag h

theorem takes_scanReference (h : scanReference text = .ok s) :
    ∃ piece, s.Takes ('&' :: text) piece := by
  unfold scanReference at h
  simp only at h
  split at h
  · rename_i rest hd
    cases h
    refine ⟨'&' :: (text.takeWhile (fun c => c != ';' && c != '&' && c != '<') ++ [';']), ?_, ?_, ?_⟩
    · rw [List.cons_append, List.append_assoc, List.singleton_append, ← hd,
        List.takeWhile_append_dropWhile]
    · simp only [byteLength_cons, byteLength_append, byteLength_nil]
      have hopen : '&'.utf8Size = 1 := rfl
      have hclose : ';'.utf8Size = 1 := rfl
      omega
    · exact List.cons_ne_nil _ _
  · contradiction

/-- What is scanned is the piece that the text begins with, and its width counts the bytes of it. -/
theorem takes_scan {c : Char} (h : scan c text = .ok s) : ∃ piece, s.Takes (c :: text) piece := by
  unfold scan at h
  split at h
  · rename_i hc
    rw [beq_iff_eq.1 hc]
    exact takes_scanMarkup h
  · split at h
    · rename_i hc
      rw [beq_iff_eq.1 hc]
      exact takes_scanReference h
    · cases h
      refine ⟨c :: text.takeWhile (fun c => c != '<' && c != '&'), ?_, ?_, ?_⟩
      · rw [List.cons_append, List.takeWhile_append_dropWhile]
      · rw [byteLength_cons]
      · exact List.cons_ne_nil _ _

end Scans

/-! ## What is read of the text -/

/-- The first lexeme is a piece of the text behind some blanks, and reading goes on behind it. -/
theorem lexemesFrom_next {trim : Bool} {offset start stop : Nat} {text : List Char}
    {lexeme : Lexeme} {rest : Lexemes}
    (h : lexemesFrom trim offset text = .next start stop lexeme rest) :
    ∃ blanks piece after, (∀ c ∈ blanks, isBlank c = true) ∧ text = blanks ++ (piece ++ after) ∧
      start = offset + byteLength blanks ∧ stop = start + byteLength piece ∧
      lexeme.IsWritten piece ∧ rest = lexemesFrom trim stop after := by
  rw [lexemesFrom_eq] at h
  simp only at h
  -- what is passed over before the lexeme: nothing at all without `trim`
  generalize hb : (if trim = true then text.takeWhile isBlank else []) = blanks at h
  obtain ⟨hblank, hprefix⟩ : (∀ c ∈ blanks, isBlank c = true) ∧ blanks <+: text := by
    rw [← hb]
    split
    · exact ⟨List.all_eq_true.1 List.all_takeWhile, List.takeWhile_prefix _⟩
    · exact ⟨fun c hc => absurd hc List.not_mem_nil, List.nil_prefix⟩
  have htext := List.prefix_iff_eq_append.1 hprefix
  split at h
  · contradiction
  · rename_i c body hd
    split at h
    · contradiction
    · rename_i s hs
      obtain ⟨piece, htakes⟩ := takes_scan hs
      obtain ⟨rfl, rfl, rfl, rfl⟩ := Lexemes.next.inj h
      refine ⟨blanks, piece, s.rest, hblank, ?_, rfl, ?_, htakes.written, rfl⟩
      · rw [← htext, hd, htakes.text_eq]
      · rw [htakes.width_eq]

theorem le_offset_lexemesFrom (trim : Bool) (offset : Nat) (text : List Char) :
    offset ≤ (lexemesFrom trim offset text).offset := by
  rw [lexemesFrom_eq]
  simp only
  split
  · exact Nat.le_add_right _ _
  · split
    · rw [Lexemes.offset, Nat.add_assoc]
      exact Nat.le_add_right _ _
    · exact Nat.le_add_right _ _

/-- The lexeme is written in the text, which begins at `offset`, between its two offsets. -/
def Told.Spans (offset : Nat) (text : List Char) (t : Told) : Prop :=
  ∃ before piece after, text = before ++ (piece ++ after) ∧ t.start = offset + byteLength before ∧
    t.stop = t.start + byteLength piece ∧ t.lexeme.IsWritten piece

theorem Told.Spans.offset_lt {offset : Nat} {text : List Char} {t : Told}
    (h : t.Spans offset text) : offset < t.stop := by
  obtain ⟨before, piece, after, -, hstart, hstop, hwritten⟩ := h
  have hpiece := byteLength_pos hwritten.ne_nil
  omega

theorem Told.Spans.stop_le {offset : Nat} {text : List Char} {t : Told}
    (h : t.Spans offset text) : t.stop ≤ offset + byteLength text := by
  obtain ⟨before, piece, after, rfl, hstart, hstop, -⟩ := h
  simp only [byteLength_append]
  omega

/-- What is written in the end of a text is written in the text. -/
theorem Told.Spans.of_suffix {offset : Nat} {first text : List Char} {t : Told}
    (h : t.Spans (offset + byteLength first) text) : t.Spans offset (first ++ text) := by
  obtain ⟨before, piece, after, rfl, hstart, hstop, hwritten⟩ := h
  refine ⟨first ++ before, piece, after, (List.append_assoc ..).symm, ?_, hstop, hwritten⟩
  rw [hstart, byteLength_append, Nat.add_assoc]

/-- The lexemes of a text are written in it one behind the other, and what comes after some of them
begins behind them. -/
theorem spans_of_prepend {trim : Bool} {offset : Nat} {text : List Char} {told : List Told}
    {rest : Lexemes} (h : lexemesFrom trim offset text = .prepend told rest) :
    (∀ t ∈ told, t.Spans offset text) ∧ told.Pairwise (fun t u => t.stop < u.stop) ∧
      offset ≤ rest.offset ∧ ∀ t ∈ told, t.stop ≤ rest.offset := by
  induction told generalizing offset text with
  | nil =>
    have hle := le_offset_lexemesFrom trim offset text
    rw [h] at hle
    exact ⟨fun t ht => (nomatch ht), .nil, hle, fun t ht => (nomatch ht)⟩
  | cons t told ih =>
    obtain ⟨blanks, piece, after, -, rfl, hstart, hstop, hwritten, hrest⟩ := lexemesFrom_next h
    have hbehind : t.stop = offset + byteLength (blanks ++ piece) := by
      rw [byteLength_append]
      omega
    obtain ⟨hspans, hsorted, hle, hlast⟩ := ih hrest.symm
    have hfirst : t.Spans offset (blanks ++ (piece ++ after)) :=
      ⟨blanks, piece, after, rfl, hstart, hstop, hwritten⟩
    refine ⟨fun u hu => ?_, List.pairwise_cons.2 ⟨fun u hu => (hspans u hu).offset_lt, hsorted⟩, ?_,
      fun u hu => ?_⟩
    · rcases List.mem_cons.1 hu with rfl | hu
      · exact hfirst
      · -- the others lie behind the first one, in what is left of the text
        rw [← List.append_assoc]
        exact (hbehind ▸ hspans u hu).of_suffix
    · exact Nat.le_trans (Nat.le_of_lt hfirst.offset_lt) hle
    · rcases List.mem_cons.1 hu with rfl | hu
      · exact hle
      · exact hlast u hu

end Markup

end DocRules
