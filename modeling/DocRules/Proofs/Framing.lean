import DocRules.Proofs.Forest
import DocRules.Proofs.Lexing
import DocRules.Proofs.Reading

/-! # The frame of a document's events

Whatever the text, its events begin with the start of the document and end either with the end of the
document or with the one fatal report. In between elements are nested, and a document that is read to
its end leaves none open.

The reader only counts the open elements. That ends meet the right starts is a property of the tokens
that it is given, `Tokens.Nested`, which those of the tokenizer have. An element whose qualifier is
not declared counts as open though it is not told of, so the names that are open for a listener are
those of some of the open tags. -/

namespace DocRules

/-- Whether an event may occur between the first and the last one of a document. -/
def Event.isInner : Event → Bool
  | .moveTo _ | .startElement .. | .endElement _ | .report .warning _ | .report .error _ => true
  | .startDocument | .endDocument | .report .fatal _ => false

namespace Markup

/-- What is left of a document's events when the elements `opened` are open. -/
def Finishes (opened : List ElementName) (events : List Event) : Prop :=
  ∃ inner last left, events = inner ++ [last] ∧ (∀ e ∈ inner, e.isInner = true) ∧
    leftOpen opened inner = some left ∧
    (last = .endDocument ∧ left = [] ∨ ∃ d, last = .report .fatal d)

theorem Finishes.fatal (opened : List ElementName) (d : Diagnostic) :
    Finishes opened [.report .fatal d] :=
  ⟨[], _, opened, rfl, by simp, rfl, .inr ⟨d, rfl⟩⟩

theorem Finishes.end : Finishes [] [.endDocument] :=
  ⟨[], _, [], rfl, by simp, rfl, .inl ⟨rfl, rfl⟩⟩

/-- Inner events lead from the elements open before them to those open after them. -/
theorem Finishes.prepend {opened left : List ElementName} {first events : List Event}
    (h : Finishes left events) (hi : ∀ e ∈ first, e.isInner = true)
    (ho : leftOpen opened first = some left) : Finishes opened (first ++ events) := by
  obtain ⟨inner, last, final, rfl, hin, hl, hf⟩ := h
  refine ⟨first ++ inner, last, final, (List.append_assoc ..).symm, ?_, ?_, hf⟩
  · intro e he
    exact (List.mem_append.1 he).elim (hi e) (hin e)
  · rw [leftOpen_append, ho]
    exact hl

/-! ## Tags -/

theorem startEvents_undeclared {tag : Tag} {qualifier : String} (h : tag.space = .error qualifier)
    (content : List Char) (p : Position) :
    ∃ reason, startEvents tag content p = [.moveTo p, .report .error ⟨reason, p⟩] := by
  rw [startEvents, h]
  exact ⟨_, rfl⟩

theorem startEvents_declared {tag : Tag} {space : Option String} (h : tag.space = .ok space)
    (content : List Char) (p : Position) :
    startEvents tag content p = .moveTo p ::
      ((problemsOf (outcomesOf content)).map (fun reason => .report .error ⟨reason, p⟩) ++
        [.startElement (tag.elementName space) (keptOf (outcomesOf content))]) := by
  rw [startEvents, h]

theorem endEvents_undeclared {tag : Tag} {qualifier : String} (h : tag.space = .error qualifier) :
    endEvents tag = [] := by
  rw [endEvents, h]

theorem endEvents_declared {tag : Tag} {space : Option String} (h : tag.space = .ok space) :
    endEvents tag = [.endElement (tag.elementName space)] := by
  rw [endEvents, h]

/-- The name that a listener knows the element of a tag by, if it is told of the element. -/
def Tag.told? (tag : Tag) : Option ElementName := tag.space.toOption.map tag.elementName

/-- The names of the open elements that a listener was told of. -/
def toldNames (opened : List Tag) : List ElementName := opened.filterMap Tag.told?

theorem toldNames_cons (tag : Tag) (opened : List Tag) :
    toldNames (tag :: opened) = tag.told?.toList ++ toldNames opened := by
  rw [toldNames, List.filterMap_cons]
  cases tag.told? <;> rfl

theorem told?_undeclared {tag : Tag} {qualifier : String} (h : tag.space = .error qualifier) :
    tag.told? = none := by
  rw [Tag.told?, h]
  rfl

theorem told?_declared {tag : Tag} {space : Option String} (h : tag.space = .ok space) :
    tag.told? = some (tag.elementName space) := by
  rw [Tag.told?, h]
  rfl

theorem leftOpen_reports (opened : List ElementName) (reasons : List String) (p : Position) :
    leftOpen opened (reasons.map fun reason => .report .error ⟨reason, p⟩) = some opened := by
  induction reasons with
  | nil => rfl
  | cons reason reasons ih =>
    rw [List.map_cons, leftOpen_cons]
    exact ih

theorem isInner_startEvents (tag : Tag) (content : List Char) (p : Position) :
    ∀ e ∈ startEvents tag content p, e.isInner = true := by
  intro e he
  cases hs : tag.space with
  | error qualifier =>
    obtain ⟨reason, hr⟩ := startEvents_undeclared hs content p
    rw [hr] at he
    simp only [List.mem_cons, List.not_mem_nil, or_false] at he
    rcases he with rfl | rfl <;> rfl
  | ok space =>
    rw [startEvents_declared hs] at he
    simp only [List.mem_cons, List.mem_append, List.mem_map, List.not_mem_nil, or_false] at he
    rcases he with rfl | ⟨reason, -, rfl⟩ | rfl <;> rfl

theorem isInner_endEvents (tag : Tag) : ∀ e ∈ endEvents tag, e.isInner = true := by
  intro e he
  cases hs : tag.space with
  | error qualifier =>
    rw [endEvents_undeclared hs] at he
    contradiction
  | ok space =>
    rw [endEvents_declared hs] at he
    obtain rfl := List.mem_singleton.1 he
    rfl

theorem leftOpen_startEvents (tag : Tag) (content : List Char) (p : Position)
    (opened : List ElementName) :
    leftOpen opened (startEvents tag content p) = some (tag.told?.toList ++ opened) := by
  cases hs : tag.space with
  | error qualifier =>
    obtain ⟨reason, hr⟩ := startEvents_undeclared hs content p
    rw [hr, told?_undeclared hs]
    rfl
  | ok space =>
    rw [startEvents_declared hs, told?_declared hs, leftOpen_cons, stepOpen, Option.bind_some,
      leftOpen_append, leftOpen_reports]
    rfl

theorem leftOpen_endEvents (tag : Tag) (opened : List ElementName) :
    leftOpen (tag.told?.toList ++ opened) (endEvents tag) = some opened := by
  cases hs : tag.space with
  | error qualifier =>
    rw [endEvents_undeclared hs, told?_undeclared hs]
    rfl
  | ok space =>
    rw [endEvents_declared hs, told?_declared hs, Option.toList_some, List.singleton_append,
      leftOpen_cons, stepOpen_endElement_self]
    rfl

/-! ## Tokens -/

/-- The tags that are open before a token and those that are open behind it, innermost first. A tag
that ends an element is the innermost one. -/
def Token.Leads (opened next : List Tag) : Token → Prop
  | .startTag tag _ => next = tag :: opened
  | .endTag tag => opened = tag :: next
  | .emptyTag .. | .doctype _ | .silent => next = opened

/-- The tokens close what is open, innermost first, as far as they go. -/
def Tokens.Nested (opened : List Tag) : Tokens → Prop
  | .eof _ | .fault _ _ => True
  | .next _ token rest => ∃ next, token.Leads opened next ∧ rest.Nested next

theorem leads_tokenOf {opened next : List OpenTag} {start : Nat} {lexeme : Lexeme} {token : Token}
    (h : tokenOf opened start lexeme = .ok (token, next)) :
    token.Leads (opened.map OpenTag.resolved) (next.map OpenTag.resolved) := by
  cases lexeme with
  | silent | doctype =>
    cases h
    rfl
  | startTag content | emptyTag content =>
    unfold tokenOf at h
    simp only at h
    split at h
    · cases h
      rfl
    · contradiction
  | endTag name =>
    unfold tokenOf at h
    simp only at h
    split at h
    · contradiction
    · split at h
      · cases h
        rfl
      · contradiction

/-- The tokenizer hands on no end of an element but that of the innermost open one. -/
theorem nested_tokensFrom (opened : List OpenTag) (lexemes : Lexemes) :
    (tokensFrom opened lexemes).Nested (opened.map OpenTag.resolved) := by
  induction lexemes generalizing opened with
  | eof offset => trivial
  | fault fault offset => trivial
  | next start stop lexeme rest ih =>
    unfold tokensFrom
    split
    · trivial
    · rename_i token next htoken
      exact ⟨next.map OpenTag.resolved, leads_tokenOf htoken, ih next⟩

section Step

variable {token : Token} {opened next : List Tag}

theorem depth_step (h : token.Leads opened next) {r : Progress} (hd : r.depth = opened.length)
    (stop : Nat) : (r.step stop token).2.depth = next.length := by
  cases token with
  | startTag tag content =>
    obtain rfl := h
    exact congrArg Nat.succ hd
  | endTag tag =>
    obtain rfl := h
    exact congrArg Nat.pred hd
  | emptyTag | doctype | silent =>
    obtain rfl := h
    exact hd

/-- A token adds inner events and keeps the names that are open in step with the open tags. -/
theorem framed_step (h : token.Leads opened next) (r : Progress) (stop : Nat) :
    (∀ e ∈ (r.step stop token).1, e.isInner = true) ∧
      leftOpen (toldNames opened) (r.step stop token).1 = some (toldNames next) := by
  cases token with
  | silent =>
    obtain rfl := h
    exact ⟨(fun _ he => nomatch he), rfl⟩
  | doctype content =>
    obtain rfl := h
    refine ⟨fun e he => ?_, rfl⟩
    obtain rfl := List.mem_singleton.1 he
    rfl
  | startTag tag content =>
    obtain rfl := h
    refine ⟨isInner_startEvents tag content _, ?_⟩
    rw [toldNames_cons]
    exact leftOpen_startEvents tag content _ _
  | emptyTag tag content =>
    obtain rfl := h
    refine ⟨fun e he => ?_, ?_⟩
    · exact (List.mem_append.1 he).elim (isInner_startEvents _ _ _ e) (isInner_endEvents _ e)
    · show leftOpen _ (startEvents tag content _ ++ endEvents tag) = _
      rw [leftOpen_append, leftOpen_startEvents, Option.bind_some, leftOpen_endEvents]
  | endTag tag =>
    obtain rfl := h
    refine ⟨fun e he => ?_, ?_⟩
    · rcases List.mem_cons.1 he with rfl | he
      · rfl
      · exact isInner_endEvents tag e he
    · show leftOpen _ (.moveTo _ :: endEvents tag) = _
      rw [toldNames_cons, leftOpen_cons, stepOpen, Option.bind_some, leftOpen_endEvents]

end Step

theorem finishes_events {tokens : Tokens} {opened : List Tag} (h : tokens.Nested opened)
    (r : Progress) (hd : r.depth = opened.length) :
    Finishes (toldNames opened) (r.events tokens) := by
  induction tokens generalizing opened r with
  | eof offset =>
    obtain ⟨message, he⟩ | ⟨-, hzero, he⟩ := r.events_eof offset
    · rw [he]
      exact .fatal ..
    · rw [he, List.length_eq_zero_iff.1 (hd.symm.trans hzero)]
      exact .end
  | fault fault offset => exact .fatal ..
  | next stop token rest ih =>
    obtain ⟨next, hleads, hrest⟩ := h
    obtain ⟨hinner, hopen⟩ := framed_step hleads r stop
    exact (ih hrest _ (depth_step hleads hd stop)).prepend hinner hopen

/-! ## Documents -/

/-- Whoever makes the tokens, if these are nested the events are framed. -/
theorem readTokens_framed (bytes : List UInt8) {tokens : Tokens} (h : tokens.Nested []) :
    ∃ inner last left, readTokens bytes tokens = .startDocument :: (inner ++ [last]) ∧
      (∀ e ∈ inner, e.isInner = true) ∧ leftOpen [] inner = some left ∧
      (last = .endDocument ∧ left = [] ∨ ∃ d, last = .report .fatal d) := by
  obtain ⟨inner, last, left, he, hframe⟩ := finishes_events h ⟨.ofBytes bytes, 0, false⟩ rfl
  exact ⟨inner, last, left, congrArg (Event.startDocument :: ·) he, hframe⟩

theorem nested_tokens (trim : Bool) (text : List Char) : (tokens trim text).Nested [] :=
  nested_tokensFrom [] _

theorem length_dropByteOrderMark_le (text : List Char) :
    (dropByteOrderMark text).length ≤ text.length := by
  unfold dropByteOrderMark
  split
  · exact Nat.le_succ _
  · exact Nat.le_refl _

/-- Reading comes to an end, after no more lexemes than there are characters. It tells of the start
of the document, then of nested elements and of what is wrong with them, and at last either of the
end of the document, where no element is open any more, or of a fatal problem. -/
theorem readDocument_framed (trim : Bool) (text : String) :
    (lexemes trim (dropByteOrderMark (dropByteOrderMark text.toList))).count ≤ text.length ∧
    ∃ inner last left, readDocument trim text = .startDocument :: (inner ++ [last]) ∧
      (∀ e ∈ inner, e.isInner = true) ∧ leftOpen [] inner = some left ∧
      (last = .endDocument ∧ left = [] ∨ ∃ d, last = .report .fatal d) := by
  constructor
  · have hone := length_dropByteOrderMark_le text.toList
    have htwo := length_dropByteOrderMark_le (dropByteOrderMark text.toList)
    have hcount := count_lexemesFrom_le trim 0 (dropByteOrderMark (dropByteOrderMark text.toList))
    rw [String.length_toList] at hone
    exact Nat.le_trans hcount (Nat.le_trans htwo hone)
  · exact readTokens_framed _ (nested_tokens trim _)

end Markup

end DocRules
