import DocRules.Proofs.Placing

/-! # Where a fatal problem is reported

Reading never goes back, so a fatal problem is reported at or behind the place of everything told
before it. Only a namespace that may not be declared is reported elsewhere, at the beginning of the
document and so in front of whatever was told. The texts of the reports tell the two apart. -/

namespace DocRules

def Event.place? : Event → Option Position
  | .moveTo p => some p
  | .report _ d => some d.position
  | _ => none

/-- The positions that the events move to or report of, in order. -/
def placesOf (events : List Event) : List Position := events.filterMap Event.place?

theorem placesOf_flatMap {α : Type} (xs : List α) (f : α → List Event) :
    placesOf (xs.flatMap f) = xs.flatMap fun x => placesOf (f x) :=
  List.filterMap_flatMap

theorem Event.IsAt.place?_eq {p q : Position} {e : Event} (h : e.IsAt p) (hq : e.place? = some q) :
    q = p := by
  cases e with
  | moveTo => exact h.elim
  | report level d => exact (Option.some.inj hq).symm.trans h
  | startDocument | endDocument | startElement | endElement => contradiction

namespace Markup

/-! ## Texts of the reports -/

theorem head?_toList {text : String} {c : Char} {rest : List Char}
    (h : text = String.ofList (c :: rest)) : text.toList.head? = some c := by
  rw [h, String.toList_ofList, List.head?_cons]

theorem head?_toList_append {first : String} {c : Char} (h : first.toList.head? = some c)
    (rest : String) : (first ++ rest).toList.head? = some c := by
  rw [String.toList_append, List.head?_append, h, Option.some_or]

theorem head?_message_scope (fault : ScopeFault) : fault.message.toList.head? = some 't' := by
  cases fault with
  | declaresXml value => exact head?_toList_append (head?_toList_append (head?_toList rfl) _) _
  | declaresXmlns value => exact head?_toList_append (head?_toList_append (head?_toList rfl) _) _
  | reserved qualifier space =>
    exact head?_toList_append (head?_toList_append
      (head?_toList_append (head?_toList_append (head?_toList rfl) _) _) _) _

/-- The report is of a namespace that may not be declared. -/
def OfDeclaration (d : Diagnostic) : Prop := ∃ fault : ScopeFault, d.message = fault.message

theorem not_ofDeclaration {c : Char} {d : Diagnostic} (h : d.message.toList.head? = some c)
    (hc : c ≠ 't') : ¬ OfDeclaration d := by
  rintro ⟨fault, hm⟩
  rw [hm, head?_message_scope] at h
  exact hc (Option.some.inj h).symm

theorem not_ofDeclaration_malformed (fault : LexFault) (p : Position) :
    ¬ OfDeclaration ⟨fault.message, p⟩ := by
  cases fault with
  | unclosedTag | unknownMarkup | unclosedCharacterData | unclosedComment | unclosedDoctype
  | unclosedInstruction => exact not_ofDeclaration (head?_toList (c := 's') rfl) (by decide)
  | unnamedDoctype | unclosedReference =>
    exact not_ofDeclaration (head?_toList (c := 'i') rfl) (by decide)

/-! ## The last report -/

/-- A fatal report is of the offset that reading has come to, or else of a declaration and at the
beginning. -/
theorem ReadState.Halts.fatal_cases {bytes : List UInt8} {r : ReadState} {lexemes : Lexemes}
    {d : Diagnostic} (h : r.Halts lexemes (.report .fatal d)) (hr : r.cursor.Counts bytes) :
    OfDeclaration d ∧ d.position = .start ∨
      ¬ OfDeclaration d ∧ d.position = .ofOffset bytes lexemes.offset := by
  cases h with
  | noRoot offset =>
    exact .inr ⟨not_ofDeclaration (head?_toList (c := 'P') rfl) (by decide), (hr.locate _).2⟩
  | unclosed offset =>
    exact .inr ⟨not_ofDeclaration (head?_toList (c := 'X') rfl) (by decide), (hr.locate _).2⟩
  | malformed fault offset =>
    exact .inr ⟨not_ofDeclaration_malformed fault _, (hr.locate _).2⟩
  | declaration start stop rest hl ht => exact .inl ⟨⟨_, rfl⟩, (hr.locate 0).2⟩
  | unmatched start stop name rest ho =>
    refine .inr ⟨not_ofDeclaration (c := 'i') ?_ (by decide), (hr.locate _).2⟩
    exact head?_toList_append (head?_toList_append (head?_toList rfl) _) _
  | mismatched start stop rest ho hn =>
    refine .inr ⟨not_ofDeclaration (c := 'i') ?_ (by decide), (hr.locate _).2⟩
    exact head?_toList_append (head?_toList_append
      (head?_toList_append (head?_toList_append (head?_toList rfl) _) _) _) _

/-! ## What was told before -/

section Told

variable {bytes : List UInt8} {told : List Told}

theorem Told.Located.eq_of_mem_placesOf {t : Told} (h : t.Located bytes) {p : Position}
    (hp : p ∈ placesOf t.events) : p = .ofOffset bytes t.stop := by
  obtain ⟨e, he, hplace⟩ := List.mem_filterMap.1 hp
  cases ht : t.lexeme.isTag with
  | true =>
    obtain ⟨others, hevents, hothers⟩ := h.tag ht
    rw [hevents] at he
    rcases List.mem_cons.1 he with rfl | he
    · exact (Option.some.inj hplace).symm
    · exact (hothers e he).place?_eq hplace
  | false => exact (h.other ht e he).place?_eq hplace

theorem exists_of_mem_placesOf (h : ∀ t ∈ told, t.Located bytes) {p : Position}
    (hp : p ∈ placesOf (told.flatMap Told.events)) : ∃ t ∈ told, p = .ofOffset bytes t.stop := by
  rw [placesOf_flatMap] at hp
  obtain ⟨t, ht, hmem⟩ := List.mem_flatMap.1 hp
  exact ⟨t, ht, (h t ht).eq_of_mem_placesOf hmem⟩

/-- Places are told in the order of the document. -/
theorem pairwise_placesOf_told (h : ∀ t ∈ told, t.Located bytes)
    (hs : told.Pairwise fun t u => t.stop < u.stop) :
    (placesOf (told.flatMap Told.events)).Pairwise (· ≤ ·) := by
  rw [placesOf_flatMap, List.pairwise_flatMap]
  refine ⟨fun t ht => List.pairwise_of_forall_mem_list fun p hp q hq => ?_,
    hs.imp_of_mem fun ht hu hlt p hp q hq => ?_⟩
  · rw [(h t ht).eq_of_mem_placesOf hp, (h t ht).eq_of_mem_placesOf hq]
  · rw [(h _ ht).eq_of_mem_placesOf hp, (h _ hu).eq_of_mem_placesOf hq]
    exact Position.ofOffset_le (Nat.le_of_lt hlt)

end Told

/-- The events before the last one tell of places in the order of the document. If the last one is
fatal, none of them lies behind its position, unless it is of a declaration: that is reported at the
beginning, in front of all of them. -/
theorem fatal_behind_places (trim : Bool) (text : String) :
    ∃ inner last, readDocument trim text = .startDocument :: (inner ++ [last]) ∧
      (placesOf inner).Pairwise (· ≤ ·) ∧
      ∀ d, last = .report .fatal d →
        (¬ OfDeclaration d → ∀ p ∈ placesOf inner, p ≤ d.position) ∧
        (OfDeclaration d → d.position = .start ∧ ∀ p ∈ placesOf inner, d.position < p) := by
  obtain ⟨told, rest, next, last, hlexemes, hcovers, hhalts, hread⟩ := exists_told trim text
  obtain ⟨hspans, hsorted, -, hlast⟩ := spans_of_prepend hlexemes
  obtain ⟨hcounts, hlocated⟩ := hcovers.located (Position.Cursor.counts_ofBytes _)
  refine ⟨told.flatMap Told.events, last, hread,
    pairwise_placesOf_told hlocated hsorted, ?_⟩
  rintro d rfl
  -- the texts decide which of the two kinds the report is of, and each kind has its own place
  rcases hhalts.fatal_cases hcounts with ⟨hd, hstart⟩ | ⟨hd, hposition⟩
  · refine ⟨fun hn => absurd hd hn, fun _ => ⟨hstart, fun p hp => ?_⟩⟩
    obtain ⟨t, ht, rfl⟩ := exists_of_mem_placesOf hlocated hp
    have hpos := (hspans t ht).offset_lt
    have hle := (hspans t ht).stop_le_length
    rw [hstart]
    exact Position.start_lt_ofOffset hpos (by omega)
  · refine ⟨fun _ p hp => ?_, fun hn => absurd hn hd⟩
    obtain ⟨t, ht, rfl⟩ := exists_of_mem_placesOf hlocated hp
    rw [hposition]
    exact Position.ofOffset_le (hlast t ht)

/-- A document whose inner element declares what may not be declared. -/
def misdeclared : String := "<a><b xmlns:xmlns=\"u\"/></a>"

theorem lexemes_misdeclared :
    lexemes true (dropByteOrderMark (dropByteOrderMark misdeclared.toList)) =
      .next 0 3 (.startTag ['a']) (.next 3 23 (.emptyTag "b xmlns:xmlns=\"u\"".toList)
        (.next 23 27 (.endTag ['a']) (.eof 27))) := by
  cbv

/-- A declaration that is not allowed is reported at the beginning, though an element began before
it. -/
theorem declaration_before_places :
    readDocument true misdeclared =
        [.startDocument, .moveTo ⟨1, 4⟩, .startElement ⟨none, "a", "a"⟩ ⟨[]⟩,
          .report .fatal ⟨(TokenFault.scope (.declaresXmlns "u")).message, ⟨1, 1⟩⟩] ∧
      (⟨1, 1⟩ : Position) < ⟨1, 4⟩ := by
  have houter : OpenTag.ofContent [] ['a'] = .ok ⟨['a'], []⟩ := by cbv
  have hinner : OpenTag.ofContent [] "b xmlns:xmlns=\"u\"".toList =
      .error (.declaresXmlns "u") := by cbv
  have hadds : (ReadState.ofDocument (dropByteOrderMark misdeclared.toList)).Adds 3
      (.startTag ['a']) _ _ := .startTag houter
  have hfault : tokenOf [⟨['a'], []⟩] 3 (.emptyTag "b xmlns:xmlns=\"u\"".toList) =
      .error (.scope (.declaresXmlns "u"), 0) := by
    rw [tokenOf, show scopeIn [⟨['a'], []⟩] = [] from rfl, hinner]
  refine ⟨?_, by decide⟩
  rw [readDocument_eq]
  simp only [lexemes_misdeclared]
  rw [hadds.events_eq, ReadState.events_of_tokenOf_error hfault]
  -- the text of the report is not computed, only the events around it
  generalize (TokenFault.scope (.declaresXmlns "u")).message = message
  cbv

end Markup

end DocRules
