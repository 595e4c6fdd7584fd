import Mathlib
import DocRules.Proofs.Framing
import DocRules.Proofs.Halting
import DocRules.Proofs.Ordering
import DocRules.Proofs.Spans

/-! # Where a document's events are placed

What is told of a tag begins with a move to the offset just behind the tag, and nothing else moves.
Offsets count the bytes of the document, but not those of a second byte order mark: behind one, every
position is that of the place three bytes earlier. -/

namespace DocRules

/-- The event does not move, and if it is a report it is one of `p`. -/
def Event.IsAt (p : Position) : Event → Prop
  | .moveTo _ => False
  | .report _ d => d.position = p
  | _ => True

def movesOf (events : List Event) : List Position :=
  events.filterMap fun
    | .moveTo p => some p
    | _ => none

theorem movesOf_append (first events : List Event) :
    movesOf (first ++ events) = movesOf first ++ movesOf events :=
  List.filterMap_append

theorem movesOf_of_isAt {p : Position} {events : List Event} (h : ∀ e ∈ events, e.IsAt p) :
    movesOf events = [] := by
  rw [movesOf, List.filterMap_eq_nil_iff]
  intro e he
  cases e with
  | moveTo q => exact (h _ he).elim
  | startDocument | endDocument | startElement | endElement | report => rfl

namespace Markup

def Lexeme.isTag : Lexeme → Bool
  | .startTag _ | .emptyTag _ | .endTag _ => true
  | .doctype _ | .silent => false

/-- All that was told of the lexeme is placed just behind it, and a tag moves there first. -/
structure Told.Located (bytes : List UInt8) (t : Told) : Prop where
  tag : t.lexeme.isTag = true → ∃ others,
    t.events = .moveTo (.ofOffset bytes t.stop) :: others ∧
      ∀ e ∈ others, e.IsAt (.ofOffset bytes t.stop)
  other : t.lexeme.isTag = false → ∀ e ∈ t.events, e.IsAt (.ofOffset bytes t.stop)

/-! ## Reading -/

theorem exists_startEvents (tag : Tag) (content : List Char) (p : Position) :
    ∃ others, startEvents tag content p = .moveTo p :: others ∧ ∀ e ∈ others, e.IsAt p := by
  cases hs : tag.space with
  | error qualifier =>
    obtain ⟨reason, he⟩ := startEvents_undeclared hs content p
    refine ⟨_, he, fun e hm => ?_⟩
    obtain rfl := List.mem_singleton.1 hm
    rfl
  | ok space =>
    refine ⟨_, startEvents_declared hs content p, fun e hm => ?_⟩
    simp only [List.mem_append, List.mem_map, List.mem_singleton] at hm
    rcases hm with ⟨reason, -, rfl⟩ | rfl
    · rfl
    · trivial

theorem isAt_endEvents (tag : Tag) (p : Position) : ∀ e ∈ endEvents tag, e.IsAt p := by
  intro e hm
  cases hs : tag.space with
  | error qualifier =>
    rw [endEvents_undeclared hs] at hm
    contradiction
  | ok space =>
    rw [endEvents_declared hs] at hm
    obtain rfl := List.mem_singleton.1 hm
    trivial

namespace ReadState

variable {bytes : List UInt8} {r next : ReadState}

theorem Adds.located {stop : Nat} {lexeme : Lexeme} {added : List Event}
    (h : r.Adds stop lexeme added next) (hr : r.cursor.Counts bytes) (start : Nat) :
    next.cursor.Counts bytes ∧ Told.Located bytes ⟨start, stop, lexeme, added⟩ := by
  obtain ⟨hcounts, hposition⟩ := hr.locate stop
  cases h with
  | silent => exact ⟨hcounts, fun ht => (nomatch ht), fun _ e he => (nomatch he)⟩
  | doctype content =>
    refine ⟨hcounts, fun ht => (nomatch ht), fun _ e he => ?_⟩
    obtain rfl := List.mem_singleton.1 he
    exact hposition
  | @startTag content inner ht =>
    refine ⟨hcounts, fun _ => ?_, fun ht => (nomatch ht)⟩
    rw [hposition]
    exact exists_startEvents inner.resolved content _
  | @emptyTag content inner ht =>
    refine ⟨hcounts, fun _ => ?_, fun ht => (nomatch ht)⟩
    rw [hposition]
    obtain ⟨others, he, hothers⟩ := exists_startEvents inner.resolved content (.ofOffset bytes stop)
    refine ⟨others ++ endEvents inner.resolved, ?_, fun e hm => ?_⟩
    · rw [he, List.cons_append]
    · exact (List.mem_append.1 hm).elim (hothers e) (isAt_endEvents inner.resolved _ e)
  | @endTag inner opened ho =>
    refine ⟨hcounts, fun _ => ?_, fun ht => (nomatch ht)⟩
    rw [hposition]
    exact ⟨_, rfl, isAt_endEvents inner.resolved _⟩

theorem Covers.located {told : List Told} (h : r.Covers told next) (hr : r.cursor.Counts bytes) :
    next.cursor.Counts bytes ∧ ∀ t ∈ told, t.Located bytes := by
  induction h with
  | nil r => exact ⟨hr, fun t ht => (nomatch ht)⟩
  | cons start hadds _ ih =>
    obtain ⟨hmid, hlocated⟩ := hadds.located hr start
    obtain ⟨hnext, hall⟩ := ih hmid
    refine ⟨hnext, fun t ht => ?_⟩
    rcases List.mem_cons.1 ht with rfl | ht
    · exact hlocated
    · exact hall t ht

end ReadState

/-! ## Moves -/

/-- The tags among what was told of move to their ends, one after the other. -/
theorem movesOf_told {bytes : List UInt8} {told : List Told} (h : ∀ t ∈ told, t.Located bytes) :
    movesOf (told.flatMap Told.events) =
      (told.filter (·.lexeme.isTag)).map fun t => .ofOffset bytes t.stop := by
  induction told with
  | nil => rfl
  | cons t told ih =>
    have hlocated := h t List.mem_cons_self
    rw [List.flatMap_cons, movesOf_append, ih fun u hu => h u (List.mem_cons_of_mem t hu)]
    cases ht : t.lexeme.isTag with
    | true =>
      obtain ⟨others, he, hothers⟩ := hlocated.tag ht
      have hmoves : movesOf t.events = [.ofOffset bytes t.stop] := by
        rw [he]
        exact congrArg (Position.ofOffset bytes t.stop :: ·) (movesOf_of_isAt hothers)
      rw [hmoves, List.filter_cons, if_pos ht]
      rfl
    | false =>
      rw [movesOf_of_isAt (hlocated.other ht), List.filter_cons, ht, if_neg Bool.false_ne_true]
      rfl

theorem pairwise_movesOf_told {bytes : List UInt8} {told : List Told}
    (h : ∀ t ∈ told, t.Located bytes) (hle : ∀ t ∈ told, t.stop ≤ bytes.length)
    (hs : told.Pairwise fun t u => t.stop < u.stop) :
    (movesOf (told.flatMap Told.events)).Pairwise (· < ·) := by
  rw [movesOf_told h, List.pairwise_map]
  refine (hs.imp_of_mem fun _ hu hlt => ?_).filter _
  exact Position.ofOffset_lt hlt (hle _ hu)

/-! ## Tags in a document -/

/-- The number of bytes at the beginning of a document that its positions leave out. -/
def uncounted (document : List Char) : Nat := if document.head? = some '\ufeff' then 3 else 0

theorem dropByteOrderMark_suffix (document : List Char) :
    ∃ mark, document = mark ++ dropByteOrderMark document ∧
      Text.byteLength mark = uncounted document := by
  unfold dropByteOrderMark
  split
  · exact ⟨['\ufeff'], rfl, rfl⟩
  · rename_i hmark
    refine ⟨[], rfl, ?_⟩
    have hhead : document.head? ≠ some '\ufeff' := fun h => by
      obtain ⟨rest, rfl⟩ := List.head?_eq_some_iff.1 h
      exact hmark rest rfl
    rw [uncounted, if_neg hhead]
    rfl

/-- The lexeme is a tag of the document, with its last byte just before the offset. -/
def Lexeme.ClosesAt (document : List Char) (stop : Nat) (lexeme : Lexeme) : Prop :=
  ∃ before inside after, document = before ++ '<' :: (inside ++ '>' :: after) ∧
    lexeme.IsWritten ('<' :: (inside ++ ['>'])) ∧
    stop = Text.byteLength (before ++ '<' :: (inside ++ ['>']))

theorem Lexeme.IsWritten.exists_inside {piece : List Char} {lexeme : Lexeme}
    (h : lexeme.IsWritten piece) (ht : lexeme.isTag = true) :
    ∃ inside, piece = '<' :: (inside ++ ['>']) := by
  cases lexeme with
  | startTag content => exact ⟨content, h⟩
  | emptyTag content => exact ⟨content ++ ['/'], h.trans (by simp)⟩
  | endTag name =>
    obtain ⟨blanks, -, hpiece⟩ := h
    exact ⟨'/' :: (name ++ blanks), hpiece⟩
  | doctype content => contradiction
  | silent => contradiction

theorem Lexeme.ClosesAt.byte {document : List Char} {stop : Nat} {lexeme : Lexeme}
    (h : lexeme.ClosesAt document stop) : (Text.utf8 document)[stop - 1]? = some 62 := by
  obtain ⟨before, inside, after, rfl, -, rfl⟩ := h
  have hlast : Text.byteLength (before ++ '<' :: (inside ++ ['>'])) - 1 =
      (Text.utf8 (before ++ '<' :: inside)).length := by
    simp only [Text.length_utf8, Text.byteLength_append, Text.byteLength_cons, Text.byteLength_nil]
    have hclose : '>'.utf8Size = 1 := rfl
    omega
  have hsplit : before ++ '<' :: (inside ++ '>' :: after) =
      (before ++ '<' :: inside) ++ (['>'] ++ after) := by simp
  have hbyte : Text.utf8 ['>'] = [62] := by decide
  rw [hlast, hsplit, Text.utf8_append, List.getElem?_append_right (Nat.le_refl _), Nat.sub_self,
    Text.utf8_append, hbyte]
  rfl

/-- A tag that is written in the text behind a byte order mark is a tag of the document. -/
theorem Told.Spans.closesAt {document : List Char} {t : Told}
    (h : t.Spans 0 (dropByteOrderMark document)) (ht : t.lexeme.isTag = true) :
    t.lexeme.ClosesAt document (t.stop + uncounted document) := by
  obtain ⟨mark, hdocument, hmark⟩ := dropByteOrderMark_suffix document
  obtain ⟨before, piece, after, htext, hstart, hstop, hwritten⟩ := h
  obtain ⟨inside, rfl⟩ := hwritten.exists_inside ht
  refine ⟨mark ++ before, inside, after, ?_, hwritten, ?_⟩
  · rw [hdocument, htext]
    simp
  · rw [List.append_assoc, Text.byteLength_append, Text.byteLength_append]
    omega

theorem Told.Spans.stop_le_length {document : List Char} {t : Told}
    (h : t.Spans 0 (dropByteOrderMark document)) :
    t.stop + uncounted document ≤ (Text.utf8 document).length := by
  obtain ⟨mark, hdocument, hmark⟩ := dropByteOrderMark_suffix document
  have hbytes := congrArg Text.byteLength hdocument
  have hstop := h.stop_le
  rw [Text.byteLength_append, hmark] at hbytes
  rw [Text.length_utf8]
  omega

/-- What is told of a tag whose last byte is just before the offset `stop`: it begins with the only
move, which leads to the position of `stop` less the bytes left out. -/
structure Told.MovesBehind (document : List Char) (t : Told) (stop : Nat) : Prop where
  closes : t.lexeme.ClosesAt document stop
  byte : (Text.utf8 document)[stop - 1]? = some 62
  moves : ∃ others, movesOf others = [] ∧
    t.events = .moveTo (.ofOffset (Text.utf8 document) (stop - uncounted document)) :: others
  exact_iff : Position.ofOffset (Text.utf8 document) (stop - uncounted document) =
    .ofOffset (Text.utf8 document) stop ↔ uncounted document = 0

theorem Told.Located.movesBehind {document : List Char} {t : Told}
    (h : t.Located (Text.utf8 document)) (hs : t.Spans 0 (dropByteOrderMark document))
    (ht : t.lexeme.isTag = true) : t.MovesBehind document (t.stop + uncounted document) := by
  have hcloses := hs.closesAt ht
  obtain ⟨others, he, hothers⟩ := h.tag ht
  refine ⟨hcloses, hcloses.byte, ⟨others, movesOf_of_isAt hothers, ?_⟩, ?_⟩
  · rw [Nat.add_sub_cancel, he]
  · have hle := hs.stop_le_length
    rw [Position.ofOffset_inj (Nat.le_trans (Nat.sub_le _ _) hle) hle]
    have hpos := hs.offset_lt
    omega

/-- Reading a document tells of its lexemes one after the other, up to where it halts. The last byte of
a tag lies just before the offset of its lexeme and the bytes of a second byte order mark. What is told
of the tag begins with a move to the position of that offset less those bytes; nothing else moves. So
the position is that of the tag's end just if there is no such mark. Every move leads on. -/
theorem moves_behind_tags (trim : Bool) (text : String) :
    let document := dropByteOrderMark text.toList
    ∃ told rest last,
      lexemes trim (dropByteOrderMark document) = .prepend told rest ∧
      readDocument trim text = .startDocument :: (told.flatMap Told.events ++ [last]) ∧
      (last = .endDocument ∧ (∃ offset, rest = .eof offset) ∨ ∃ d, last = .report .fatal d) ∧
      (∀ t ∈ told, t.lexeme.isTag = true →
        t.MovesBehind document (t.stop + uncounted document)) ∧
      (∀ t ∈ told, t.lexeme.isTag = false → movesOf t.events = []) ∧
      (movesOf (readDocument trim text)).Pairwise (· < ·) := by
  intro document
  obtain ⟨told, rest, next, last, hlexemes, hcovers, hhalts, hread⟩ := exists_told trim text
  obtain ⟨hspans, hsorted, -, -⟩ := spans_of_prepend hlexemes
  obtain ⟨-, hlocated⟩ := hcovers.located (Position.Cursor.counts_ofBytes _)
  have htags : ∀ t ∈ told, t.lexeme.isTag = true →
      t.MovesBehind document (t.stop + uncounted document) :=
    fun t ht htag => (hlocated t ht).movesBehind (hspans t ht) htag
  refine ⟨told, rest, last, hlexemes, hread, hhalts.last_cases, htags,
    fun t ht htag => movesOf_of_isAt ((hlocated t ht).other htag), ?_⟩
  have hlast : movesOf [last] = [] := by
    obtain ⟨rfl, -⟩ | ⟨d, rfl⟩ := hhalts.last_cases <;> rfl
  have hmoves : movesOf (readDocument trim text) = movesOf (told.flatMap Told.events) := by
    rw [hread, ← List.cons_append, movesOf_append, hlast, List.append_nil]
    rfl
  rw [hmoves]
  exact pairwise_movesOf_told hlocated
    (fun t ht => Nat.le_trans (Nat.le_add_right _ _) (hspans t ht).stop_le_length) hsorted

/-- With two byte order marks the end of the only tag is placed three bytes early. -/
theorem second_mark_shifts :
    let document := dropByteOrderMark "\ufeff\ufeff<a/>".toList
    (Text.utf8 document)[6]? = some 62 ∧ Position.ofOffset (Text.utf8 document) 7 = ⟨1, 8⟩ ∧
      readDocument true "\ufeff\ufeff<a/>" =
        [.startDocument, .moveTo ⟨1, 5⟩, .startElement ⟨none, "a", "a"⟩ ⟨[]⟩,
          .endElement ⟨none, "a", "a"⟩, .endDocument] := by
  refine ⟨?_, ?_, ?_⟩ <;> cbv

end Markup

end DocRules
