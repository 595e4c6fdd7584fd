import DocRules.Element
import DocRules.Log

/-! # Document events

What a reader tells of a document, in document order. A position event precedes the element events
that happened there. -/

namespace DocRules

/-- One thing that a reader tells. The events behind a move come from its position. -/
inductive Event where
  | startDocument
  | endDocument
  | moveTo (position : Position)
  | startElement (name : ElementName) (attributes : Attributes)
  | endElement (name : ElementName)
  | report (level : Level) (diagnostic : Diagnostic)
deriving DecidableEq, Repr

end DocRules
