import DocRules.Proofs.Lexing
import DocRules.Proofs.Locating
import DocRules.Session

/-! # Blanks between lexemes make no difference

Blanks before a lexeme are passed over or read as text. Either way the lexemes that carry events are
the same and have the same offsets, and so has the end or the fault that they lead to. So nobody who
is told of a document, and nothing that runs it, can tell which way it was read. -/

namespace DocRules

namespace Markup

/-! ## Lexemes and tokens that carry events -/

/-- The lexemes without those that carry no event. -/
def Lexemes.loud : Lexemes → Lexemes
  | .next _ _ .silent rest => rest.loud
  | .next start stop lexeme rest => .next start stop lexeme rest.loud
  | ended => ended

theorem loud_next {start stop : Nat} {lexeme : Lexeme} {first second : Lexemes}
    (h : first.loud = second.loud) :
    (Lexemes.next start stop lexeme first).loud = (Lexemes.next start stop lexeme second).loud := by
  cases lexeme with
  | silent => exact h
  | startTag | emptyTag | endTag | doctype => exact congrArg (Lexemes.next start stop _) h

/-- The tokens without those that carry no event. -/
def Tokens.loud : Tokens → Tokens
  | .next _ .silent rest => rest.loud
  | .next stop token rest => .next stop token rest.loud
  | ended => ended

/-- Those are the tokens of the lexemes that carry events. -/
theorem loud_tokensFrom (opened : List OpenTag) (lexemes : Lexemes) :
    (tokensFrom opened lexemes).loud = tokensFrom opened lexemes.loud := by
  induction lexemes generalizing opened with
  | eof | fault => rfl
  | next start stop lexeme rest ih =>
    cases lexeme with
    | silent => exact ih opened
    | doctype content => exact congrArg (Tokens.next stop _) (ih opened)
    | startTag content | emptyTag content =>
      simp only [Lexemes.loud, tokensFrom, tokenOf]
      cases OpenTag.ofContent (scopeIn opened) content with
      | error fault => rfl
      | ok inner => exact congrArg (Tokens.next stop _) (ih _)
    | endTag name =>
      simp only [Lexemes.loud, tokensFrom]
      cases opened with
      | nil => rfl
      | cons inner opened =>
        by_cases hn : name = inner.name
        · simp only [tokenOf, if_pos hn]
          exact congrArg (Tokens.next stop _) (ih opened)
        · simp only [tokenOf, if_neg hn]
          rfl

/-- Two cursors on the same bytes tell the same positions, so one of them may pass over tokens that
the other one locates. -/
theorem events_loud {bytes : List UInt8} {c c' : Position.Cursor} (hc : c.Counts bytes)
    (hc' : c'.Counts bytes) (depth : Nat) (rootSeen : Bool) (tokens : Tokens) :
    Progress.events ⟨c, depth, rootSeen⟩ tokens.loud =
      Progress.events ⟨c', depth, rootSeen⟩ tokens := by
  induction tokens generalizing c c' depth rootSeen with
  | eof offset | fault fault offset =>
    simp only [Tokens.loud, Progress.events, Progress.abort, (hc.locate offset).2,
      (hc'.locate offset).2]
  | next stop token rest ih =>
    obtain ⟨hcounts, hposition⟩ := hc.locate stop
    obtain ⟨hcounts', hposition'⟩ := hc'.locate stop
    cases token with
    | silent => exact ih hc hcounts' depth rootSeen
    | startTag | emptyTag | endTag | doctype =>
      simp only [Tokens.loud, Progress.events, Progress.step, hposition, hposition',
        ih hcounts hcounts']

/-- Whoever makes the tokens, those without an event make no difference to the events. -/
theorem readTokens_eq_of_loud (bytes : List UInt8) {first second : Tokens}
    (h : first.loud = second.loud) : readTokens bytes first = readTokens bytes second := by
  have hcounts := Position.Cursor.counts_ofBytes bytes
  rw [readTokens, readTokens, ← events_loud hcounts hcounts, h, events_loud hcounts hcounts]

/-! ## Plain text -/

theorem isPlain_of_isBlank {c : Char} (h : Text.isBlank c = true) : isPlain c = true := by
  apply isPlain_of_ne
  constructor
  · rintro rfl
    contradiction
  · rintro rfl
    contradiction

/-- What is left of a plain text that has begun carries no event. -/
theorem loud_plain (offset : Nat) (text : List Char) :
    (lexemesFrom false (offset + Text.byteLength (text.takeWhile isPlain))
      (text.dropWhile isPlain)).loud = (lexemesFrom false offset text).loud := by
  cases text with
  | nil => rfl
  | cons c text =>
    cases hc : isPlain c with
    | false => rw [List.takeWhile_cons, List.dropWhile_cons, hc]; rfl
    | true =>
      rw [List.takeWhile_cons, List.dropWhile_cons, hc, if_pos rfl, if_pos rfl,
        lexemesFrom_cons false offset rfl (scan_plain hc text), Lexemes.loud,
        Text.byteLength_cons]

/-- Both ways of reading come to the same lexemes that carry events. -/
theorem loud_lexemesFrom (offset : Nat) (text : List Char) :
    (lexemesFrom true offset text).loud = (lexemesFrom false offset text).loud := by
  induction hn : text.length using Nat.strongRecOn generalizing offset text with
  | ind n ih =>
    subst hn
    cases text with
    | nil => rw [lexemesFrom_nil, lexemesFrom_nil]
    | cons c body =>
      cases hb : Text.isBlank c with
      | true =>
        -- what a trimming reader passes over begins a text for the other one
        have hplain := isPlain_of_isBlank hb
        rw [lexemesFrom_blank offset hb, ih body.length (Nat.lt_succ_self _) _ body rfl,
          lexemesFrom_cons false offset rfl (scan_plain hplain body), Lexemes.loud,
          ← Nat.add_assoc, loud_plain]
      | false =>
        rw [lexemesFrom_scan true offset body hb,
          lexemesFrom_scan false offset body rfl]
        cases hs : scan c body with
        | error stop => rfl
        | ok s =>
          have hrest := ih s.rest.length (Nat.lt_succ_of_le (length_rest_scan hs))
            (offset + s.width) s.rest rfl
          exact loud_next hrest

theorem loud_tokens (trim : Bool) (text : List Char) :
    (tokens trim text).loud = (tokens false text).loud := by
  cases trim with
  | false => rfl
  | true =>
    have hlexemes := loud_lexemesFrom 0 (dropByteOrderMark text)
    rw [tokens, tokens, loud_tokensFrom, loud_tokensFrom]
    exact congrArg (tokensFrom []) hlexemes

theorem readDocument_trim (first second : Bool) (text : String) :
    readDocument first text = readDocument second text :=
  readTokens_eq_of_loud _ ((loud_tokens first _).trans (loud_tokens second _).symm)

end Markup

/-! ## Settings -/

def Recording.setTrim (r : Recording) (trim : Bool) : Recording :=
  { r with settings := { r.settings with trim } }

theorem Recording.keep_setTrim (r : Recording) (trim : Bool) (space : Option String)
    (e : Recorded) : (r.setTrim trim).keep space e = (r.keep space e).setTrim trim := by
  have hallows : (r.setTrim trim).settings.allows space = r.settings.allows space := by
    cases space <;> rfl
  rw [keep, keep, hallows]
  split <;> rfl

theorem Recording.handleAll_setTrim (r : Recording) (trim : Bool) (events : List Event) :
    (r.setTrim trim).handleAll events = (r.handleAll events).setTrim trim := by
  refine List.foldl_hom (setTrim · trim) fun r e => ?_
  cases e with
  | startElement name attributes => exact r.keep_setTrim trim _ _
  | endElement name => exact r.keep_setTrim trim _ _
  | startDocument | endDocument | moveTo | report => rfl

namespace Session

variable {ι α : Type}

def setTrim (s : Session ι α) (trim : Bool) : Session ι α :=
  { s with settings := { s.settings with reading := { s.settings.reading with trim } } }

theorem record_setTrim (s : Session ι α) (trim : Bool) (text : String) :
    (s.setTrim trim).record text = (s.record text).setTrim trim := by
  rw [record, record, ← Recording.handleAll_setTrim,
    Markup.readDocument_trim (s.setTrim trim).settings.reading.trim s.settings.reading.trim]
  rfl

variable [DecidableEq ι] (behaviour : ι → Behaviour α)

theorem play_setTrim (s : Session ι α) (trim : Bool) (r : Recording) :
    let run := s.play behaviour r
    (s.setTrim trim).play behaviour (r.setTrim trim) =
      ⟨run.session.setTrim trim, run.outcome, run.calls⟩ := by
  have hreplay : (r.setTrim trim).replay = r.replay := rfl
  have hprepared : (s.setTrim trim).prepared (r.setTrim trim) = s.prepared r := rfl
  simp only [play, hreplay, hprepared]
  split <;> rfl

/-- The settings about blanks are kept, and make no other difference to a run. -/
theorem runText_setTrim (s : Session ι α) (trim : Bool) (text : String) :
    let run := s.runText behaviour text
    (s.setTrim trim).runText behaviour text =
      ⟨run.session.setTrim trim, run.outcome, run.calls⟩ := by
  calc (s.setTrim trim).runText behaviour text
      = (s.setTrim trim).play behaviour ((s.setTrim trim).record text) := rfl
    _ = (s.setTrim trim).play behaviour ((s.record text).setTrim trim) := by rw [record_setTrim]
    _ = _ := play_setTrim behaviour s trim (s.record text)

/-- A document is told of in the same way whether blanks before its lexemes are passed over or read as
text. So under settings that differ in this only, running it has the same outcome, makes the same
calls and leaves the same workspace. -/
theorem trim_unobservable (s : Session ι α) (text : String) (first second : Bool) :
    Markup.readDocument first text = Markup.readDocument second text ∧
      let run trim := (s.setTrim trim).runText behaviour text
      (run first).outcome = (run second).outcome ∧ (run first).calls = (run second).calls ∧
        (run first).session.workspace = (run second).session.workspace := by
  refine ⟨Markup.readDocument_trim first second text, ?_⟩
  simp only [runText_setTrim]
  exact ⟨trivial, trivial, rfl⟩

end Session

end DocRules
