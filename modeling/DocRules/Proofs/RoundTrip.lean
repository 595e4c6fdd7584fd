import DocRules.Proofs.PlainTags

/-! # Reading undoes writing

A document that was written from a draft is read back as the draft: nothing is reported, and apart
from positions the events are those of its elements, whatever stands between the tags.

The text between two tags may be one lexeme or none, depending on whether blanks are passed over,
and neighbouring pieces of text run together. So reading is followed from one place in the text to
a later one and not from one lexeme to the next. -/

namespace DocRules

def Event.isMove : Event → Bool
  | .moveTo _ => true
  | _ => false

/-- The events that tell of more than a position. -/
def withoutMoves (events : List Event) : List Event := events.filter (!·.isMove)

theorem withoutMoves_append (first second : List Event) :
    withoutMoves (first ++ second) = withoutMoves first ++ withoutMoves second :=
  List.filter_append ..

namespace Markup

/-! ## From place to place -/

/-- A place in a text: what is open there, innermost first, whether an element was met, and the text
ahead. -/
structure Spot where
  opened : List PlainTag
  rootSeen : Bool
  ahead : List Char

/-- What reading the lexemes tells, positions apart, when it starts with some plain elements open. -/
def plainEvents (cursor : Position.Cursor) (opened : List PlainTag) (rootSeen : Bool)
    (lexemes : Lexemes) : List Event :=
  withoutMoves (ReadState.events ⟨cursor, opened.map PlainTag.toOpenTag, rootSeen⟩ lexemes)

/-- Reading on from one place tells the events and comes to the other place. -/
def Reads (trim : Bool) (a : Spot) (events : List Event) (b : Spot) : Prop :=
  ∀ offset cursor, ∃ offset' cursor',
    plainEvents cursor a.opened a.rootSeen (lexemesFrom trim offset a.ahead) =
      events ++ plainEvents cursor' b.opened b.rootSeen (lexemesFrom trim offset' b.ahead)

variable {trim seen : Bool} {opened : List PlainTag}

theorem Reads.refl (a : Spot) : Reads trim a [] a := fun offset cursor => ⟨offset, cursor, rfl⟩

theorem Reads.trans {a b c : Spot} {first second : List Event} (hf : Reads trim a first b)
    (hs : Reads trim b second c) : Reads trim a (first ++ second) c := by
  intro offset cursor
  obtain ⟨offset₁, cursor₁, h₁⟩ := hf offset cursor
  obtain ⟨offset₂, cursor₂, h₂⟩ := hs offset₁ cursor₁
  exact ⟨offset₂, cursor₂, by rw [h₁, h₂, List.append_assoc]⟩

/-- One lexeme further. -/
theorem reads_next {c : Char} {body : List Char} {lexeme : Lexeme} {width : Nat}
    {events : List Event} {b : Spot} (hc : (trim && Text.isBlank c) = false)
    (hs : scan c body = .ok ⟨lexeme, width, b.ahead⟩)
    (ha : ∀ cursor stop, ∃ added cursor', withoutMoves added = events ∧
      ReadState.Adds ⟨cursor, opened.map PlainTag.toOpenTag, seen⟩ stop lexeme added
        ⟨cursor', b.opened.map PlainTag.toOpenTag, b.rootSeen⟩) :
    Reads trim ⟨opened, seen, c :: body⟩ events b := by
  intro offset cursor
  obtain ⟨added, cursor', he, hadds⟩ := ha cursor (offset + width)
  refine ⟨offset + width, cursor', ?_⟩
  simp only [lexemesFrom_cons _ offset hc hs, plainEvents]
  rw [hadds.events_eq, withoutMoves_append, he]

theorem reads_silent {c : Char} {body rest : List Char} {width : Nat}
    (hc : (trim && Text.isBlank c) = false) (hs : scan c body = .ok ⟨.silent, width, rest⟩) :
    Reads trim ⟨opened, seen, c :: body⟩ [] ⟨opened, seen, rest⟩ :=
  reads_next hc hs fun _ _ => ⟨[], _, rfl, .silent⟩

theorem reads_blank {c : Char} (hc : Text.isBlank c = true) (rest : List Char) :
    Reads true ⟨opened, seen, c :: rest⟩ [] ⟨opened, seen, rest⟩ := fun offset cursor =>
  ⟨_, cursor, by rw [lexemesFrom_blank offset hc, List.nil_append]⟩

/-! ## Tags -/

theorem and_isBlank_bracket : (trim && Text.isBlank '<') = false := Bool.and_false trim

theorem scopeIn_plain (opened : List PlainTag) :
    scopeIn (opened.map PlainTag.toOpenTag) = [] := by
  cases opened <;> rfl

theorem ofContent_plain (opened : List PlainTag) (tag : PlainTag) :
    OpenTag.ofContent (scopeIn (opened.map PlainTag.toOpenTag)) tag.written = .ok tag.toOpenTag := by
  rw [scopeIn_plain]
  exact tag.ofContent_written

theorem reads_startTag (tag : PlainTag) (rest : List Char) :
    Reads trim ⟨opened, seen, '<' :: (tag.written ++ '>' :: rest)⟩ [tag.start]
      ⟨tag :: opened, true, rest⟩ := by
  obtain ⟨width, hs⟩ := tag.scan_startTag rest
  refine reads_next and_isBlank_bracket hs fun cursor stop =>
    ⟨_, _, ?_, .startTag (ofContent_plain opened tag)⟩
  rw [tag.resolved_toOpenTag, tag.startEvents_written]
  rfl

theorem reads_emptyTag (tag : PlainTag) (rest : List Char) :
    Reads trim ⟨opened, seen, '<' :: (tag.written ++ '/' :: '>' :: rest)⟩ [tag.start, tag.stop]
      ⟨opened, true, rest⟩ := by
  obtain ⟨width, hs⟩ := tag.scan_emptyTag rest
  refine reads_next and_isBlank_bracket hs fun cursor stop =>
    ⟨_, _, ?_, .emptyTag (ofContent_plain opened tag)⟩
  rw [tag.resolved_toOpenTag, tag.startEvents_written, tag.endEvents_toTag]
  rfl

theorem reads_endTag (tag : PlainTag) (rest : List Char) :
    Reads trim ⟨tag :: opened, seen, '<' :: '/' :: (tag.name.letters ++ '>' :: rest)⟩ [tag.stop]
      ⟨opened, seen, rest⟩ := by
  obtain ⟨width, hs⟩ := tag.name.scan_endTag rest
  refine reads_next and_isBlank_bracket hs fun cursor stop => ?_
  have hadds : ReadState.Adds ⟨cursor, (tag :: opened).map PlainTag.toOpenTag, seen⟩ stop
      (.endTag tag.toOpenTag.name) (.moveTo (cursor.locate stop).2 :: endEvents tag.toOpenTag.resolved)
      ⟨(cursor.locate stop).1, opened.map PlainTag.toOpenTag, seen⟩ := .endTag rfl
  refine ⟨_, _, ?_, hadds⟩
  rw [tag.resolved_toOpenTag, tag.endEvents_toTag]
  rfl

/-! ## Between the tags -/

/-- The text begins with markup, or is over. -/
def AtMarkup (text : List Char) : Prop := ∀ c ∈ text.head?, c = '<'

theorem atMarkup_nil : AtMarkup [] := fun _ hc => nomatch hc

theorem atMarkup_bracket (text : List Char) : AtMarkup ('<' :: text) := by
  rintro c ⟨⟩
  rfl

/-- Text is read up to the markup or the end that follows it. -/
theorem reads_text {letters rest : List Char} (hl : ∀ c ∈ letters, isPlain c = true)
    (hr : AtMarkup rest) :
    Reads trim ⟨opened, seen, letters ++ rest⟩ [] ⟨opened, seen, rest⟩ := by
  have hstop : ∀ c ∈ rest.head?, isPlain c = false := by
    intro c hc
    rw [hr c hc]
    rfl
  induction letters with
  | nil => exact .refl _
  | cons c letters ih =>
    have hletters : ∀ d ∈ letters, isPlain d = true := fun d hd => hl d (List.mem_cons_of_mem c hd)
    cases hc : trim && Text.isBlank c with
    | true =>
      obtain ⟨rfl, hblank⟩ := Bool.and_eq_true_iff.1 hc
      exact (reads_blank hblank _).trans (ih hletters)
    | false =>
      have hs := scan_plain (hl c List.mem_cons_self) (letters ++ rest)
      rw [Text.dropWhile_append_of_head? hletters hstop] at hs
      exact reads_silent hc hs

theorem reads_comment {body : List Char} (hb : '-' ∉ body) (rest : List Char) :
    Reads trim ⟨opened, seen, "<!--".toList ++ (body ++ ("-->".toList ++ rest))⟩ []
      ⟨opened, seen, rest⟩ := by
  have hs : scan '<' ('!' :: '-' :: '-' :: (body ++ ("-->".toList ++ rest))) =
      .ok ⟨.silent, Text.byteLength body + 7, rest⟩ := by
    have hcut : Text.cutAtMark "-->".toList (body ++ ("-->".toList ++ rest)) = some (body, rest) :=
      Text.cutAtMark_append hb
    rw [scan, if_pos (beq_self_eq_true '<'), scanMarkup, scanComment, hcut]
  exact reads_silent and_isBlank_bracket hs

theorem written_cons (filler : Filler) (gap : Gap) :
    Gap.written (filler :: gap) = filler.written ++ gap.written := List.flatMap_cons

/-- A gap is read over. Text in front of it may run together with text in it. -/
theorem reads_text_gap {letters rest : List Char} (hl : ∀ c ∈ letters, isPlain c = true)
    (gap : Gap) (hr : AtMarkup rest) :
    Reads trim ⟨opened, seen, letters ++ (gap.written ++ rest)⟩ [] ⟨opened, seen, rest⟩ := by
  induction gap generalizing letters with
  | nil => exact reads_text hl hr
  | cons filler gap ih =>
    rw [written_cons, List.append_assoc]
    cases filler with
    | text more hm =>
      have hboth : ∀ c ∈ letters ++ more, isPlain c = true := by
        intro c hc
        exact (List.mem_append.1 hc).elim (hl c) fun h => isPlain_of_ne (hm c h)
      rw [Filler.written, ← List.append_assoc]
      exact ih hboth
    | comment body hb =>
      have hbody : '-' ∉ body := fun h => (hb '-' h).1 rfl
      have hcomment : Reads trim
          ⟨opened, seen, (Filler.comment body hb).written ++ (Gap.written gap ++ rest)⟩ []
          ⟨opened, seen, Gap.written gap ++ rest⟩ := by
        rw [Filler.written, List.append_assoc, List.append_assoc]
        exact reads_comment hbody _
      have hgap : Reads trim ⟨opened, seen, Gap.written gap ++ rest⟩ [] ⟨opened, seen, rest⟩ :=
        ih (fun c hc => absurd hc List.not_mem_nil)
      exact (reads_text hl (atMarkup_bracket _)).trans (hcomment.trans hgap)

theorem reads_gap (gap : Gap) {rest : List Char} (hr : AtMarkup rest) :
    Reads trim ⟨opened, seen, gap.written ++ rest⟩ [] ⟨opened, seen, rest⟩ :=
  reads_text_gap (fun _ hc => absurd hc List.not_mem_nil) gap hr

/-! ## Elements -/

theorem atMarkup_draft (e : Draft) (rest : List Char) : AtMarkup (e.written ++ rest) := by
  cases e with
  | empty tag => exact atMarkup_bracket _
  | filled tag content => exact atMarkup_bracket _

mutual
theorem reads_draft (opened : List PlainTag) (seen : Bool) (rest : List Char) :
    ∀ e : Draft, Reads trim ⟨opened, seen, e.written ++ rest⟩ e.events ⟨opened, true, rest⟩
  | .empty tag => by
    rw [Draft.written, Draft.events, List.cons_append, List.append_assoc]
    exact reads_emptyTag tag rest
  | .filled tag content => by
    have hwritten : (Draft.filled tag content).written ++ rest =
        '<' :: (tag.written ++ '>' :: (content.written ++
          '<' :: '/' :: (tag.name.letters ++ '>' :: rest))) := by
      simp [Draft.written]
    have hcontent := reads_content (tag :: opened) ('/' :: (tag.name.letters ++ '>' :: rest)) content
    rw [hwritten, Draft.events]
    exact (reads_startTag tag _).trans (hcontent.trans (reads_endTag tag rest))

/-- The content of an element is read up to the tag that closes it. -/
theorem reads_content (opened : List PlainTag) (rest : List Char) :
    ∀ content : Content, Reads trim ⟨opened, true, content.written ++ '<' :: rest⟩ content.events
      ⟨opened, true, '<' :: rest⟩
  | .last gap => reads_gap gap (atMarkup_bracket rest)
  | .next gap e content => by
    have helement := reads_draft opened true (content.written ++ '<' :: rest) e
    have hcontent := reads_content opened rest content
    rw [Content.written, Content.events, List.append_assoc, List.append_assoc]
    exact (reads_gap gap (atMarkup_draft e _)).trans (helement.trans hcontent)
end

/-! ## Documents -/

/-- A byte order mark in front of a document is part of the text there, and without it the document
is that of another draft of the same element. -/
theorem dropByteOrderMark_gap (gap : Gap) {rest : List Char} (hr : AtMarkup rest) :
    ∃ gap' : Gap, dropByteOrderMark (gap.written ++ rest) = gap'.written ++ rest := by
  have hkeep (text : List Char) (h : ∀ c ∈ text.head?, c ≠ '\ufeff') :
      dropByteOrderMark text = text := by
    unfold dropByteOrderMark
    split
    · exact absurd rfl (h _ rfl)
    · rfl
  induction gap with
  | nil =>
    refine ⟨[], hkeep _ fun c hc => ?_⟩
    rw [hr c hc]
    decide
  | cons filler gap ih =>
    cases filler with
    | text letters hl =>
      cases letters with
      | nil => exact ih
      | cons c letters =>
        by_cases hc : c = '\ufeff'
        · subst hc
          exact ⟨.text letters (fun c hc => hl c (List.mem_cons_of_mem _ hc)) :: gap, rfl⟩
        · refine ⟨.text (c :: letters) hl :: gap, hkeep _ ?_⟩
          rintro d ⟨⟩
          exact hc
    | comment body hb =>
      refine ⟨.comment body hb :: gap, hkeep _ ?_⟩
      rintro c ⟨⟩
      decide

theorem dropByteOrderMark_written (m : Manuscript) :
    ∃ m' : Manuscript, dropByteOrderMark m.written = m'.written ∧ m'.root = m.root := by
  obtain ⟨before, h⟩ := dropByteOrderMark_gap m.before (atMarkup_draft m.root m.after.written)
  exact ⟨⟨before, m.root, m.after⟩, h, rfl⟩

theorem reads_manuscript (trim : Bool) (m : Manuscript) :
    Reads trim ⟨[], false, m.written⟩ m.root.events ⟨[], true, []⟩ := by
  have hafter : Reads trim ⟨[], true, m.after.written ++ []⟩ [] ⟨[], true, []⟩ :=
    reads_gap m.after atMarkup_nil
  have hroot := (reads_draft [] false (m.after.written ++ []) m.root).trans hafter
  rw [List.append_nil, List.append_nil] at hroot
  exact (reads_gap m.before (atMarkup_draft m.root _)).trans hroot

/-- Reading undoes writing: a written document is read as the start of the document, the elements
that it was written from, and the end of the document. Nothing else is told, except of positions. -/
theorem readDocument_written (trim : Bool) (m : Manuscript) :
    withoutMoves (readDocument trim (String.ofList m.written)) =
      .startDocument :: (m.root.events ++ [.endDocument]) := by
  obtain ⟨m₁, h₁, hroot₁⟩ := dropByteOrderMark_written m
  obtain ⟨m₂, h₂, hroot₂⟩ := dropByteOrderMark_written m₁
  obtain ⟨offset, cursor, h⟩ :=
    reads_manuscript trim m₂ 0 (.ofBytes (Text.utf8 m₁.written))
  simp only [lexemesFrom_nil] at h
  rw [hroot₂, hroot₁] at h
  rw [readDocument_eq]
  simp only [String.toList_ofList, h₁, h₂]
  exact congrArg (Event.startDocument :: ·) h

end Markup

end DocRules
