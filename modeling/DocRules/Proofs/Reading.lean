import DocRules.Markup.Document

/-! # Reading one lexeme

The tokenizer knows the open tags and the reader of its tokens knows the place and the number of
those tags; here they go on side by side. Either a lexeme becomes a token that adds some events, or
reading halts in front of it with a last event. That is the end of the document or one of six fatal
reports, of which that of a namespace that may not be declared is placed at the beginning of the
document and all others at the offset that reading has come to. What holds of a whole document
follows from this by induction over its lexemes. -/

namespace DocRules.Markup

/-- A document ends where an element was met and none is open. The end of the text is fatal else. -/
theorem Progress.events_eof (r : Progress) (offset : Nat) :
    (∃ message, r.events (.eof offset) = r.abort message offset) ∨
      r.rootSeen = true ∧ r.depth = 0 ∧ r.events (.eof offset) = [.endDocument] := by
  unfold events
  cases hr : r.rootSeen with
  | false => exact .inl ⟨_, rfl⟩
  | true =>
    cases hd : r.depth with
    | zero => exact .inr ⟨rfl, rfl, rfl⟩
    | succ depth => exact .inl ⟨_, rfl⟩

/-- How far a document has been read, and which tags are open, innermost first. -/
structure ReadState where
  cursor : Position.Cursor
  opened : List OpenTag
  rootSeen : Bool

namespace ReadState

/-- What the reader of the tokens keeps. -/
def progress (r : ReadState) : Progress := ⟨r.cursor, r.opened.length, r.rootSeen⟩

def events (r : ReadState) (lexemes : Lexemes) : List Event :=
  r.progress.events (tokensFrom r.opened lexemes)

/-- A lexeme that ends at `stop` adds the events and leads to the state `next`. -/
inductive Adds (r : ReadState) (stop : Nat) : Lexeme → List Event → ReadState → Prop where
  | silent : Adds r stop .silent [] { r with cursor := (r.cursor.locate stop).1 }
  | doctype (content : List Char) :
      Adds r stop (.doctype content)
        [.report .warning ⟨doctypeWarning content, (r.cursor.locate stop).2⟩]
        { r with cursor := (r.cursor.locate stop).1 }
  | startTag {content : List Char} {inner : OpenTag}
      (ht : OpenTag.ofContent (scopeIn r.opened) content = .ok inner) :
      Adds r stop (.startTag content) (startEvents inner.resolved content (r.cursor.locate stop).2)
        ⟨(r.cursor.locate stop).1, inner :: r.opened, true⟩
  | emptyTag {content : List Char} {inner : OpenTag}
      (ht : OpenTag.ofContent (scopeIn r.opened) content = .ok inner) :
      Adds r stop (.emptyTag content)
        (startEvents inner.resolved content (r.cursor.locate stop).2 ++ endEvents inner.resolved)
        { r with cursor := (r.cursor.locate stop).1, rootSeen := true }
  | endTag {inner : OpenTag} {opened : List OpenTag} (ho : r.opened = inner :: opened) :
      Adds r stop (.endTag inner.name) (.moveTo (r.cursor.locate stop).2 :: endEvents inner.resolved)
        { r with cursor := (r.cursor.locate stop).1, opened }

/-- Reading halts in front of the lexemes with a last event. -/
inductive Halts (r : ReadState) : Lexemes → Event → Prop where
  | complete (offset : Nat) (hr : r.rootSeen = true) (ho : r.opened = []) :
      Halts r (.eof offset) .endDocument
  | noRoot (offset : Nat) (hr : r.rootSeen = false) :
      Halts r (.eof offset)
        (.report .fatal ⟨DocumentFault.noRoot.message, (r.cursor.locate offset).2⟩)
  | unclosed (offset : Nat) (hr : r.rootSeen = true) (ho : r.opened ≠ []) :
      Halts r (.eof offset)
        (.report .fatal ⟨DocumentFault.unclosedElement.message, (r.cursor.locate offset).2⟩)
  | malformed (fault : LexFault) (offset : Nat) :
      Halts r (.fault fault offset) (.report .fatal ⟨fault.message, (r.cursor.locate offset).2⟩)
  | declaration {content : List Char} {lexeme : Lexeme} {fault : ScopeFault} (start stop : Nat)
      (rest : Lexemes) (hl : lexeme = .startTag content ∨ lexeme = .emptyTag content)
      (ht : OpenTag.ofContent (scopeIn r.opened) content = .error fault) :
      Halts r (.next start stop lexeme rest)
        (.report .fatal ⟨(TokenFault.scope fault).message, (r.cursor.locate 0).2⟩)
  | unmatched (start stop : Nat) (name : List Char) (rest : Lexemes) (ho : r.opened = []) :
      Halts r (.next start stop (.endTag name) rest)
        (.report .fatal ⟨(TokenFault.unmatchedEnd (String.ofList name)).message,
          (r.cursor.locate start).2⟩)
  | mismatched {inner : OpenTag} {opened : List OpenTag} (start stop : Nat) {name : List Char}
      (rest : Lexemes) (ho : r.opened = inner :: opened) (hn : name ≠ inner.name) :
      Halts r (.next start stop (.endTag name) rest)
        (.report .fatal
          ⟨(TokenFault.mismatchedEnd (String.ofList inner.name) (String.ofList name)).message,
            (r.cursor.locate start).2⟩)

/-- The lexeme becomes a token, of which the reader tells the events. -/
theorem Adds.exists_token {r next : ReadState} {stop : Nat} {lexeme : Lexeme} {added : List Event}
    (h : r.Adds stop lexeme added next) (start : Nat) :
    ∃ token, tokenOf r.opened start lexeme = .ok (token, next.opened) ∧
      r.progress.step stop token = (added, next.progress) := by
  cases h with
  | silent => exact ⟨.silent, rfl, rfl⟩
  | doctype content => exact ⟨.doctype content, rfl, rfl⟩
  | @startTag content inner ht =>
    refine ⟨.startTag inner.resolved content, ?_, rfl⟩
    rw [tokenOf, ht]
  | @emptyTag content inner ht =>
    refine ⟨.emptyTag inner.resolved content, ?_, rfl⟩
    rw [tokenOf, ht]
  | @endTag inner opened ho =>
    refine ⟨.endTag inner.resolved, ?_, ?_⟩
    · unfold tokenOf
      rw [ho]
      exact if_pos rfl
    · simp only [progress, ho]
      rfl

theorem Adds.events_eq {r next : ReadState} {stop : Nat} {lexeme : Lexeme} {added : List Event}
    (h : r.Adds stop lexeme added next) (start : Nat) (rest : Lexemes) :
    r.events (.next start stop lexeme rest) = added ++ next.events rest := by
  obtain ⟨token, ht, hs⟩ := h.exists_token start
  rw [events, tokensFrom, ht]
  simp only [Progress.events, hs]
  rfl

theorem events_of_tokenOf_error {r : ReadState} {start : Nat} {lexeme : Lexeme} {fault : TokenFault}
    {offset : Nat} (h : tokenOf r.opened start lexeme = .error (fault, offset)) (stop : Nat)
    (rest : Lexemes) :
    r.events (.next start stop lexeme rest) =
      [.report .fatal ⟨fault.message, (r.cursor.locate offset).2⟩] := by
  rw [events, tokensFrom, h]
  rfl

theorem halts_eof (r : ReadState) (offset : Nat) :
    ∃ last, r.Halts (.eof offset) last ∧ r.events (.eof offset) = [last] := by
  unfold events tokensFrom Progress.events progress
  cases hr : r.rootSeen with
  | false => exact ⟨_, .noRoot offset hr, rfl⟩
  | true =>
    cases ho : r.opened with
    | nil => exact ⟨_, .complete offset hr ho, rfl⟩
    | cons inner opened => exact ⟨_, .unclosed offset hr (ho ▸ List.cons_ne_nil _ _), rfl⟩

/-- The first lexeme either is told of or ends the reading. -/
theorem adds_or_halts (r : ReadState) (start stop : Nat) (lexeme : Lexeme) (rest : Lexemes) :
    (∃ added next, r.Adds stop lexeme added next) ∨
      ∃ last, r.Halts (.next start stop lexeme rest) last ∧
        r.events (.next start stop lexeme rest) = [last] := by
  cases lexeme with
  | silent => exact .inl ⟨_, _, .silent⟩
  | doctype content => exact .inl ⟨_, _, .doctype content⟩
  | startTag content =>
    cases ht : OpenTag.ofContent (scopeIn r.opened) content with
    | error fault =>
      refine .inr ⟨_, .declaration start stop rest (.inl rfl) ht, events_of_tokenOf_error ?_ stop rest⟩
      rw [tokenOf, ht]
    | ok inner => exact .inl ⟨_, _, .startTag ht⟩
  | emptyTag content =>
    cases ht : OpenTag.ofContent (scopeIn r.opened) content with
    | error fault =>
      refine .inr ⟨_, .declaration start stop rest (.inr rfl) ht, events_of_tokenOf_error ?_ stop rest⟩
      rw [tokenOf, ht]
    | ok inner => exact .inl ⟨_, _, .emptyTag ht⟩
  | endTag name =>
    cases ho : r.opened with
    | nil =>
      refine .inr ⟨_, .unmatched start stop name rest ho, events_of_tokenOf_error ?_ stop rest⟩
      unfold tokenOf
      rw [ho]
    | cons inner opened =>
      by_cases hn : name = inner.name
      · subst hn
        exact .inl ⟨_, _, .endTag ho⟩
      · refine .inr ⟨_, .mismatched start stop rest ho hn, events_of_tokenOf_error ?_ stop rest⟩
        unfold tokenOf
        rw [ho]
        exact if_neg hn

theorem events_eof (r : ReadState) (offset : Nat) :
    (∃ d, r.events (.eof offset) = [.report .fatal d]) ∨
      r.rootSeen = true ∧ r.opened = [] ∧ r.events (.eof offset) = [.endDocument] := by
  obtain ⟨last, hhalts, he⟩ := r.halts_eof offset
  rw [he]
  cases hhalts with
  | complete _ hr ho => exact .inr ⟨hr, ho, rfl⟩
  | noRoot | unclosed => exact .inl ⟨_, rfl⟩

theorem events_next (r : ReadState) (start stop : Nat) (lexeme : Lexeme) (rest : Lexemes) :
    (∃ d, r.events (.next start stop lexeme rest) = [.report .fatal d]) ∨
      ∃ added next, r.Adds stop lexeme added next ∧
        r.events (.next start stop lexeme rest) = added ++ next.events rest := by
  rcases r.adds_or_halts start stop lexeme rest with ⟨added, next, hadds⟩ | ⟨last, hhalts, he⟩
  · exact .inr ⟨added, next, hadds, hadds.events_eq start rest⟩
  · rw [he]
    cases hhalts with
    | declaration | unmatched | mismatched => exact .inl ⟨_, rfl⟩

end ReadState

/-- Before the first lexeme of a document. -/
def ReadState.ofDocument (document : List Char) : ReadState :=
  ⟨.ofBytes (Text.utf8 document), [], false⟩

theorem readDocument_eq (trim : Bool) (text : String) :
    let document := dropByteOrderMark text.toList
    readDocument trim text = .startDocument ::
      (ReadState.ofDocument document).events (lexemes trim (dropByteOrderMark document)) := rfl

end DocRules.Markup
