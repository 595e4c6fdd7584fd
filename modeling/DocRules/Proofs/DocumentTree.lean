import DocRules.Proofs.Framing
import DocRules.Proofs.Locating
import DocRules.Proofs.Replay

/-! # The elements of a document

Which elements a document has can be said of its lexemes alone: the tags pair up, and what lies
between the tags of a pair is again elements. A document that is read without a fatal report has
elements in this sense, and recording and replaying what is read of it gives the events of the
elements that remain when those are left out that nothing is told of or that are not kept. -/

namespace DocRules.Markup

/-- An element of a document: its tag with the declarations inside it, the content of the tag, the
offsets just behind its two tags, which are the same if it has one tag only, and the elements inside
it. -/
inductive Node where
  | mk (tag : OpenTag) (content : List Char) (opened closed : Nat) (inner : List Node)

/-- The lexemes are those of elements next to each other, inside the declarations of a scope and
followed by `rest`. -/
inductive Spells : Scope → List Node → Lexemes → Lexemes → Prop where
  | nil (scope : Scope) (rest : Lexemes) : Spells scope [] rest rest
  | silent {scope : Scope} {nodes : List Node} {more rest : Lexemes} (start stop : Nat) :
      Spells scope nodes more rest → Spells scope nodes (.next start stop .silent more) rest
  | doctype {scope : Scope} {nodes : List Node} {more rest : Lexemes} (start stop : Nat)
      (content : List Char) :
      Spells scope nodes more rest →
      Spells scope nodes (.next start stop (.doctype content) more) rest
  | single {scope : Scope} {nodes : List Node} {more rest : Lexemes} {content : List Char}
      {tag : OpenTag} (start stop : Nat) : OpenTag.ofContent scope content = .ok tag →
      Spells scope nodes more rest →
      Spells scope (.mk tag content stop stop [] :: nodes)
        (.next start stop (.emptyTag content) more) rest
  | pair {scope : Scope} {inner nodes : List Node} {body more rest : Lexemes} {content : List Char}
      {tag : OpenTag} (start stop last closed : Nat) : OpenTag.ofContent scope content = .ok tag →
      Spells tag.scope inner body (.next last closed (.endTag tag.name) more) →
      Spells scope nodes more rest →
      Spells scope (.mk tag content stop closed inner :: nodes)
        (.next start stop (.startTag content) body) rest

/-- The text is a document with these elements. -/
def IsDocument (trim : Bool) (text : String) (nodes : List Node) : Prop :=
  ∃ stop, Spells [] nodes (lexemes trim (dropByteOrderMark (dropByteOrderMark text.toList)))
    (.eof stop)

/-! ## Elements that remain -/

/-- The name of the element of a tag, if it is told of and kept. -/
def Tag.remaining? (s : ReadSettings) (tag : Tag) : Option ElementName :=
  tag.told?.filter fun name => s.allows name.space

mutual
/-- The element as it is replayed, or what remains of its content. Positions are those of the
offsets in the bytes of the document. -/
def Node.remaining (s : ReadSettings) (bytes : List UInt8) : Node → Forest
  | .mk tag content opened closed inner =>
    match tag.resolved.remaining? s with
    | some name =>
      [.mk name.replayed (keptOf (outcomesOf content)) (.ofOffset bytes opened)
        (.ofOffset bytes closed) (remainingAll s bytes inner)]
    | none => remainingAll s bytes inner

def remainingAll (s : ReadSettings) (bytes : List UInt8) : List Node → Forest
  | [] => []
  | node :: nodes => node.remaining s bytes ++ remainingAll s bytes nodes
end

section Retelling

variable {s : ReadSettings} {tag : Tag}

theorem remaining?_declared {space : Option String} (h : tag.space = .ok space) :
    tag.remaining? s = if s.allows space then some (tag.elementName space) else none := by
  rw [Tag.remaining?, told?_declared h]
  rfl

theorem remaining?_undeclared {qualifier : String} (h : tag.space = .error qualifier) :
    tag.remaining? s = none := by
  rw [Tag.remaining?, told?_undeclared h]
  rfl

theorem retell_reports (p q : Position) (reasons : List String) (more : List Event) :
    Recording.retell s p ((reasons.map fun reason => .report .error ⟨reason, q⟩) ++ more) =
      Recording.retell s p more := by
  induction reasons with
  | nil => rfl
  | cons reason reasons ih => exact ih

theorem retell_startEvents (content : List Char) (p q : Position) (more : List Event) :
    Recording.retell s p (startEvents tag content q ++ more) =
      (match tag.remaining? s with
        | some name => [.moveTo q, .startElement name.replayed (keptOf (outcomesOf content))]
        | none => []) ++ Recording.retell s q more := by
  cases hs : tag.space with
  | error qualifier =>
    obtain ⟨reason, he⟩ := startEvents_undeclared hs content q
    rw [he, remaining?_undeclared hs]
    rfl
  | ok space =>
    rw [startEvents_declared hs, remaining?_declared hs, List.cons_append, Recording.retell,
      List.append_assoc, retell_reports, List.singleton_append, Recording.retell]
    by_cases ha : s.allows space = true
    · rw [if_pos ha, if_pos (show s.allows (tag.elementName space).space = true from ha)]
      rfl
    · rw [if_neg ha, if_neg (show ¬ s.allows (tag.elementName space).space = true from ha)]
      rfl

theorem retell_endEvents (p : Position) (more : List Event) :
    Recording.retell s p (endEvents tag ++ more) =
      (match tag.remaining? s with
        | some name => [.moveTo p, .endElement name.replayed]
        | none => []) ++ Recording.retell s p more := by
  cases hs : tag.space with
  | error qualifier =>
    rw [endEvents_undeclared hs, remaining?_undeclared hs]
    rfl
  | ok space =>
    rw [endEvents_declared hs, remaining?_declared hs, List.singleton_append, Recording.retell]
    by_cases ha : s.allows space = true
    · rw [if_pos ha, if_pos (show s.allows (tag.elementName space).space = true from ha)]
      rfl
    · rw [if_neg ha, if_neg (show ¬ s.allows (tag.elementName space).space = true from ha)]
      rfl

end Retelling

/-! ## What is read of elements -/

/-- From `r` on the events are told up to `next`, where the same elements are open. Recorded and
replayed they are those of the forest. -/
structure Tells (s : ReadSettings) (bytes : List UInt8) (r : ReadState) (events : List Event)
    (next : ReadState) (forest : Forest) : Prop where
  opened : next.opened = r.opened
  counts : next.cursor.Counts bytes
  retold : ∀ p, ∃ q, ∀ more,
    Recording.retell s p (events ++ more) = Forest.events forest ++ Recording.retell s q more

section Tells

variable {s : ReadSettings} {bytes : List UInt8} {r mid next : ReadState}
  {first second : List Event} {forest others : Forest}

theorem Tells.refl (h : r.cursor.Counts bytes) : Tells s bytes r [] r [] :=
  ⟨rfl, h, fun p => ⟨p, fun _ => rfl⟩⟩

theorem Tells.append (hf : Tells s bytes r first mid forest)
    (hs : Tells s bytes mid second next others) :
    Tells s bytes r (first ++ second) next (forest ++ others) := by
  refine ⟨hs.opened.trans hf.opened, hs.counts, fun p => ?_⟩
  obtain ⟨between, hfirst⟩ := hf.retold p
  obtain ⟨q, hsecond⟩ := hs.retold between
  refine ⟨q, fun more => ?_⟩
  rw [List.append_assoc, hfirst, hsecond, Forest.events_append, List.append_assoc]

theorem tells_silent (stop : Nat) (h : r.cursor.Counts bytes) :
    Tells s bytes r [] { r with cursor := (r.cursor.locate stop).1 } [] :=
  ⟨rfl, (h.locate stop).1, fun p => ⟨p, fun _ => rfl⟩⟩

theorem tells_doctype (stop : Nat) (content : List Char) (h : r.cursor.Counts bytes) :
    Tells s bytes r [.report .warning ⟨doctypeWarning content, (r.cursor.locate stop).2⟩]
      { r with cursor := (r.cursor.locate stop).1 } [] :=
  ⟨rfl, (h.locate stop).1, fun p => ⟨p, fun _ => rfl⟩⟩

theorem tells_single (stop : Nat) (content : List Char) (tag : OpenTag)
    (h : r.cursor.Counts bytes) :
    Tells s bytes r
      (startEvents tag.resolved content (r.cursor.locate stop).2 ++ endEvents tag.resolved)
      { r with cursor := (r.cursor.locate stop).1, rootSeen := true }
      ((Node.mk tag content stop stop []).remaining s bytes) := by
  obtain ⟨hcounts, hposition⟩ := h.locate stop
  refine ⟨rfl, hcounts, fun p => ⟨(r.cursor.locate stop).2, fun more => ?_⟩⟩
  rw [List.append_assoc, retell_startEvents, retell_endEvents, Node.remaining, remainingAll,
    hposition]
  cases tag.resolved.remaining? s with
  | none => rfl
  | some name => rfl

/-- Between the two tags of a pair there is what was told of its content. -/
theorem tells_pair {inside : ReadState} (stop closed : Nat) (content : List Char) (tag : OpenTag)
    (inner : List Node) (h : r.cursor.Counts bytes)
    (hi : Tells s bytes ⟨(r.cursor.locate stop).1, tag :: r.opened, true⟩ first inside
      (remainingAll s bytes inner)) :
    Tells s bytes r
      (startEvents tag.resolved content (r.cursor.locate stop).2 ++ first ++
        (.moveTo (inside.cursor.locate closed).2 :: endEvents tag.resolved))
      { inside with cursor := (inside.cursor.locate closed).1, opened := r.opened }
      ((Node.mk tag content stop closed inner).remaining s bytes) := by
  obtain ⟨-, hopened⟩ := h.locate stop
  obtain ⟨hcounts, hclosed⟩ := hi.counts.locate closed
  obtain ⟨q, hinner⟩ := hi.retold (r.cursor.locate stop).2
  refine ⟨rfl, hcounts, fun p => ⟨(inside.cursor.locate closed).2, fun more => ?_⟩⟩
  rw [List.append_assoc, List.append_assoc, retell_startEvents, hinner, List.cons_append,
    Recording.retell, retell_endEvents, Node.remaining, hopened, hclosed]
  cases tag.resolved.remaining? s with
  | none => rfl
  | some name =>
    simp only [Forest.events, Element.events, List.cons_append, List.nil_append, List.append_nil,
      List.append_assoc]

end Tells

/-- Reading the lexemes of elements tells what replays as those that remain of them. An element was
met if there is one among them. -/
theorem Spells.tells {scope : Scope} {nodes : List Node} {lexemes rest : Lexemes}
    (h : Spells scope nodes lexemes rest) (s : ReadSettings) {bytes : List UInt8} {r : ReadState}
    (hscope : scopeIn r.opened = scope) (hcounts : r.cursor.Counts bytes) :
    ∃ told next, r.events lexemes = told ++ next.events rest ∧
      Tells s bytes r told next (remainingAll s bytes nodes) ∧
      next.rootSeen = (r.rootSeen || !nodes.isEmpty) := by
  -- what is told of the first element leaves a state from which the others are told
  induction h generalizing r with
  | nil scope rest => exact ⟨[], r, rfl, .refl hcounts, (Bool.or_false _).symm⟩
  | @silent scope nodes more rest start stop _ ih =>
    have hone := tells_silent (s := s) stop hcounts
    obtain ⟨told, next, he, htells, hseen⟩ :=
      ih (r := { r with cursor := (r.cursor.locate stop).1 }) hscope hone.counts
    refine ⟨_, next, ?_, hone.append htells, hseen⟩
    rw [ReadState.Adds.silent.events_eq, he, List.append_assoc]
  | @doctype scope nodes more rest start stop content _ ih =>
    have hone := tells_doctype (s := s) stop content hcounts
    obtain ⟨told, next, he, htells, hseen⟩ :=
      ih (r := { r with cursor := (r.cursor.locate stop).1 }) hscope hone.counts
    refine ⟨_, next, ?_, hone.append htells, hseen⟩
    rw [(ReadState.Adds.doctype content).events_eq, he, List.append_assoc]
  | @single scope nodes more rest content tag start stop ht _ ih =>
    subst hscope
    have hone := tells_single (s := s) stop content tag hcounts
    obtain ⟨told, next, he, htells, hseen⟩ :=
      ih (r := { r with cursor := (r.cursor.locate stop).1, rootSeen := true }) rfl hone.counts
    refine ⟨_, next, ?_, hone.append htells, hseen.trans (Bool.or_true _).symm⟩
    rw [(ReadState.Adds.emptyTag ht).events_eq, he]
    simp only [List.append_assoc]
  | @pair scope inner nodes body more rest content tag start stop last closed ht _ _ ihin ihnext =>
    subst hscope
    obtain ⟨inside, mid, hinside, hin, hmet⟩ :=
      ihin (r := ⟨(r.cursor.locate stop).1, tag :: r.opened, true⟩) rfl (hcounts.locate stop).1
    have hone := tells_pair stop closed content tag inner hcounts hin
    obtain ⟨told, next, he, htells, hseen⟩ := ihnext
      (r := { mid with cursor := (mid.cursor.locate closed).1, opened := r.opened })
      rfl hone.counts
    refine ⟨_, next, ?_, hone.append htells, ?_⟩
    · rw [(ReadState.Adds.startTag ht).events_eq, hinside,
        (ReadState.Adds.endTag hin.opened).events_eq, he]
      simp only [List.append_assoc, List.cons_append]
    · rw [hseen, hmet]
      exact (Bool.or_true _).symm

theorem retell_events_eof (s : ReadSettings) (p : Position) (r : ReadState) (stop : Nat) :
    Recording.retell s p (r.events (.eof stop)) = [] := by
  obtain ⟨d, he⟩ | ⟨-, -, he⟩ := r.events_eof stop
  · rw [he]
    rfl
  · rw [he]
    rfl

/-- What is read of a document replays as the elements that remain. -/
theorem retell_readDocument {trim : Bool} {text : String} {nodes : List Node}
    (h : IsDocument trim text nodes) (s : ReadSettings) :
    Recording.retell s .start (readDocument trim text) =
      Forest.events (remainingAll s (Text.utf8 (dropByteOrderMark text.toList)) nodes) := by
  obtain ⟨stop, hspells⟩ := h
  have hcounts := Position.Cursor.counts_ofBytes (Text.utf8 (dropByteOrderMark text.toList))
  obtain ⟨told, next, he, htells, -⟩ := hspells.tells s
    (r := .ofDocument (dropByteOrderMark text.toList)) rfl hcounts
  obtain ⟨q, hretold⟩ := htells.retold .start
  rw [readDocument_eq, Recording.retell, he, hretold, retell_events_eof, List.append_nil]

/-! ## Documents have elements -/

/-- The lexemes are those of elements and of the end tags of the open elements, innermost first. -/
def Unwinds : List OpenTag → Lexemes → Prop
  | [], lexemes => ∃ nodes stop, Spells [] nodes lexemes (.eof stop)
  | tag :: opened, lexemes => ∃ nodes start stop more,
      Spells tag.scope nodes lexemes (.next start stop (.endTag tag.name) more) ∧
        Unwinds opened more

/-- What stands in front of the lexemes belongs to the innermost open element. -/
theorem Unwinds.prepend {opened : List OpenTag} {lexemes more : Lexemes} (h : Unwinds opened more)
    (hspells : ∀ nodes rest, Spells (scopeIn opened) nodes more rest →
      ∃ others, Spells (scopeIn opened) others lexemes rest) : Unwinds opened lexemes := by
  cases opened with
  | nil =>
    obtain ⟨nodes, stop, hs⟩ := h
    obtain ⟨others, ho⟩ := hspells nodes _ hs
    exact ⟨others, stop, ho⟩
  | cons tag opened =>
    obtain ⟨nodes, start, stop, behind, hs, hrest⟩ := h
    obtain ⟨others, ho⟩ := hspells nodes _ hs
    exact ⟨others, start, stop, behind, ho, hrest⟩

/-- Without a fatal report every open element is closed and every end tag closes the right one. -/
theorem unwinds_of_no_fatal (lexemes : Lexemes) (r : ReadState)
    (h : ∀ d, Event.report .fatal d ∉ r.events lexemes) : Unwinds r.opened lexemes := by
  -- a lexeme that is read goes in front of what the lexemes behind it unwind
  induction lexemes generalizing r with
  | eof offset =>
    obtain ⟨d, he⟩ | ⟨-, ho, -⟩ := r.events_eof offset
    · exact absurd (he ▸ List.mem_singleton_self _) (h d)
    · rw [ho]
      exact ⟨[], offset, .nil _ _⟩
  | fault fault offset => exact absurd (List.mem_singleton_self _) (h _)
  | next start stop lexeme rest ih =>
    obtain ⟨d, he⟩ | ⟨added, next, hadds, he⟩ := r.events_next start stop lexeme rest
    · exact absurd (he ▸ List.mem_singleton_self _) (h d)
    · have hnext : Unwinds next.opened rest :=
        ih next fun d hd => h d (he ▸ List.mem_append_right added hd)
      cases hadds with
      | silent => exact hnext.prepend fun nodes _ hs => ⟨nodes, .silent start stop hs⟩
      | doctype content =>
        exact hnext.prepend fun nodes _ hs => ⟨nodes, .doctype start stop content hs⟩
      | startTag ht =>
        obtain ⟨inner, last, closed, more, hinner, hmore⟩ := hnext
        exact hmore.prepend fun nodes _ hs => ⟨_, .pair start stop last closed ht hinner hs⟩
      | emptyTag ht => exact hnext.prepend fun nodes _ hs => ⟨_, .single start stop ht hs⟩
      | endTag ho =>
        rw [ho]
        exact ⟨[], start, stop, rest, .nil _ _, hnext⟩

/-- A text that is read without a fatal report is a document. -/
theorem exists_isDocument {trim : Bool} {text : String}
    (h : ∀ d, Event.report .fatal d ∉ readDocument trim text) :
    ∃ nodes, IsDocument trim text nodes :=
  unwinds_of_no_fatal _ (.ofDocument (dropByteOrderMark text.toList))
    fun d hd => h d (List.mem_cons_of_mem _ hd)

end DocRules.Markup
