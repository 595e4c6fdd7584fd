import DocRules.Event
import DocRules.Markup.Tokenizer.Reference
import DocRules.Markup.Tokenizer.Token
import DocRules.Position.Cursor

/-! # Documents as events

Reading a document turns tokens into events. Elements are told by their start and their end; one
without content by both. What is malformed inside a tag is left out and reported as an error; a fault
of the tokens and an incomplete document are fatal and end the events. Reading only counts how many
elements are open: that their tags match is left to whatever makes the tokens.

The events begin with `startDocument` and end with either `endDocument` or one fatal report. -/

namespace DocRules.Markup

/-- Why a document is incomplete though its tokens are not at fault. -/
inductive DocumentFault where
  | noRoot
  | unclosedElement
deriving DecidableEq, Repr

def DocumentFault.message : DocumentFault → String
  | .noRoot => "Premature end of file."
  | .unclosedElement => "XML document structures must start and end within the same entity."

/-- The name that the events of an element carry. -/
def Tag.elementName (tag : Tag) (space : Option String) : ElementName :=
  ⟨space, String.ofList (splitName tag.name).2, String.ofList tag.name⟩

/-- What becomes of an assignment. One that declares a namespace is no attribute. -/
inductive Outcome where
  | kept (a : Attribute)
  | declaration
  | problem (reason : String)
deriving DecidableEq, Repr

/-- What becomes of an assignment in the tag of an element called `name`. -/
def outcomeOf (name : String) : Except AttributeFault Assignment → Outcome
  | .error fault => .problem s!"Malformed attribute on <{name}>: {fault.message}"
  | .ok a =>
    if (declaredQualifier? a.name).isSome then .declaration
    else
      match unescape a.value with
      | .ok value => .kept ⟨a.name, value⟩
      | .error fault =>
        .problem s!"Bad value for attribute '{a.name}' on <{name}>: {fault.message}"

/-- What becomes of the assignments in the content of a tag. -/
def outcomesOf (content : List Char) : List Outcome :=
  let name := nameOf content
  (assignmentsFrom true [] (Text.byteLength name) (attributesOf content)).map
    (outcomeOf (String.ofList name))

def keptOf (outcomes : List Outcome) : Attributes :=
  ⟨outcomes.filterMap fun
    | .kept a => some a
    | _ => none⟩

def problemsOf (outcomes : List Outcome) : List String :=
  outcomes.filterMap fun
    | .problem reason => some reason
    | _ => none

/-- The events at the start of an element. One with an undeclared qualifier is only reported. -/
def startEvents (tag : Tag) (content : List Char) (p : Position) : List Event :=
  match tag.space with
  | .error qualifier =>
    let reason :=
      s!"The prefix \"{qualifier}\" for element \"{String.ofList tag.name}\" is not bound."
    [.moveTo p, .report .error ⟨reason, p⟩]
  | .ok space =>
    let outcomes := outcomesOf content
    let reports := (problemsOf outcomes).map fun reason => Event.report .error ⟨reason, p⟩
    .moveTo p :: (reports ++ [.startElement (tag.elementName space) (keptOf outcomes)])

def endEvents (tag : Tag) : List Event :=
  match tag.space with
  | .error _ => []
  | .ok space => [.endElement (tag.elementName space)]

/-- The document type that used to be required. -/
def obsoleteDoctype : String := "log4j.dtd"

def occursIn (mark text : List Char) : Bool := (Text.cutAtMark mark text).isSome

def doctypeWarning (content : List Char) : String :=
  if occursIn obsoleteDoctype.toList content then
    s!"The '{obsoleteDoctype}' is no longer used nor needed."
  else s!"DOCTYPE declaration ignored: {String.ofList (Text.trim content)}"

/-- How far a document has been read: the place, the number of open elements, and whether an element
was met. -/
structure Progress where
  cursor : Position.Cursor
  depth : Nat
  rootSeen : Bool

namespace Progress

/-- The only event of a document that cannot be read on from here. -/
def abort (r : Progress) (message : String) (offset : Nat) : List Event :=
  [.report .fatal ⟨message, (r.cursor.locate offset).2⟩]

/-- The events of one token that ends at `stop`, and the progress behind it. -/
def step (r : Progress) (stop : Nat) (token : Token) : List Event × Progress :=
  -- the cursor goes along with every token, also one that nothing is told of
  let (cursor, p) := r.cursor.locate stop
  match token with
  | .silent => ([], { r with cursor })
  | .doctype content => ([.report .warning ⟨doctypeWarning content, p⟩], { r with cursor })
  | .startTag tag content => (startEvents tag content p, ⟨cursor, r.depth + 1, true⟩)
  | .emptyTag tag content =>
    (startEvents tag content p ++ endEvents tag, { r with cursor, rootSeen := true })
  | .endTag tag => (.moveTo p :: endEvents tag, { r with cursor, depth := r.depth - 1 })

/-- The events of the tokens that follow. -/
def events (r : Progress) : Tokens → List Event
  | .eof offset =>
    if !r.rootSeen then r.abort DocumentFault.noRoot.message offset
    else if 0 < r.depth then r.abort DocumentFault.unclosedElement.message offset
    else [.endDocument]
  | .fault fault offset => r.abort fault.message offset
  | .next stop token rest =>
    let (added, next) := r.step stop token
    added ++ next.events rest

end Progress

/-- The events of a document, from its bytes and its tokens. -/
def readTokens (bytes : List UInt8) (tokens : Tokens) : List Event :=
  .startDocument :: Progress.events ⟨.ofBytes bytes, 0, false⟩ tokens

/-- The events of a document. A byte order mark is not part of it; a second one is, so positions count
its bytes, though the offsets of the tokens do not. -/
def readDocument (trim : Bool) (text : String) : List Event :=
  let document := dropByteOrderMark text.toList
  readTokens (Text.utf8 document) (tokens trim document)

end DocRules.Markup
