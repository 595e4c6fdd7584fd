import DocRules.Proofs.Reading

/-! # How far a document is read

Reading tells of one lexeme after the other and then halts with one last event: the end of the
document, which comes behind the last lexeme only, or a fatal report. -/

namespace DocRules.Markup

/-- A lexeme that was read, the offsets of its two ends, and the events that told of it. -/
structure Told where
  start : Nat
  stop : Nat
  lexeme : Lexeme
  events : List Event

/-- The offset of what comes first: the beginning of a lexeme, a fault, or the end. -/
def Lexemes.offset : Lexemes → Nat
  | .eof offset | .fault _ offset | .next offset _ _ _ => offset

/-- The lexemes told of, and those after them. -/
def Lexemes.prepend : List Told → Lexemes → Lexemes
  | [], rest => rest
  | t :: told, rest => .next t.start t.stop t.lexeme (prepend told rest)

namespace ReadState

/-- The lexemes are read one after the other, up to the state `next`. -/
inductive Covers : ReadState → List Told → ReadState → Prop where
  | nil (r : ReadState) : Covers r [] r
  | cons {r mid next : ReadState} {stop : Nat} {lexeme : Lexeme} {added : List Event}
      {told : List Told} (start : Nat) :
      r.Adds stop lexeme added mid → Covers mid told next →
      Covers r (⟨start, stop, lexeme, added⟩ :: told) next

theorem Halts.last_cases {r : ReadState} {lexemes : Lexemes} {last : Event}
    (h : r.Halts lexemes last) :
    last = .endDocument ∧ (∃ offset, lexemes = .eof offset) ∨ ∃ d, last = .report .fatal d := by
  cases h with
  | complete offset _ _ => exact .inl ⟨rfl, offset, rfl⟩
  | noRoot | unclosed | malformed | declaration | unmatched | mismatched => exact .inr ⟨_, rfl⟩

/-- The events tell of the lexemes up to where reading halts, and then of its end. -/
theorem exists_covers (r : ReadState) (lexemes : Lexemes) :
    ∃ told rest next last, lexemes = .prepend told rest ∧ r.Covers told next ∧
      next.Halts rest last ∧ r.events lexemes = told.flatMap Told.events ++ [last] := by
  induction lexemes generalizing r with
  | eof offset =>
    obtain ⟨last, hhalts, he⟩ := r.halts_eof offset
    exact ⟨[], _, r, last, rfl, .nil r, hhalts, he⟩
  | fault fault offset => exact ⟨[], _, r, _, rfl, .nil r, .malformed fault offset, rfl⟩
  | next start stop lexeme rest ih =>
    -- either the lexeme is told of and the rest is read from there, or reading halts here
    rcases r.adds_or_halts start stop lexeme rest with ⟨added, mid, hadds⟩ | ⟨last, hhalts, he⟩
    · obtain ⟨told, behind, next, last, rfl, hcovers, hhalts, he⟩ := ih mid
      refine ⟨⟨start, stop, lexeme, added⟩ :: told, behind, next, last, rfl,
        .cons start hadds hcovers, hhalts, ?_⟩
      rw [hadds.events_eq, he, List.flatMap_cons, List.append_assoc]
    · exact ⟨[], _, r, last, rfl, .nil r, hhalts, he⟩

end ReadState

/-- A document is told of lexeme by lexeme, up to where its reading halts. -/
theorem exists_told (trim : Bool) (text : String) :
    let document := dropByteOrderMark text.toList
    ∃ told rest next last, lexemes trim (dropByteOrderMark document) = .prepend told rest ∧
      (ReadState.ofDocument document).Covers told next ∧ next.Halts rest last ∧
      readDocument trim text = .startDocument :: (told.flatMap Told.events ++ [last]) := by
  intro document
  obtain ⟨told, rest, next, last, hlexemes, hcovers, hhalts, he⟩ :=
    (ReadState.ofDocument document).exists_covers (lexemes trim (dropByteOrderMark document))
  exact ⟨told, rest, next, last, hlexemes, hcovers, hhalts, congrArg (Event.startDocument :: ·) he⟩

end DocRules.Markup
