import DocRules.Element
import DocRules.Path
import DocRules.Workspace

/-! # Behaviour of actions

An action is known to rules and dispatching by an identity alone; its behaviour says what it does.
It works on the workspace that all actions of a document share, and keeps no state of its own. -/

namespace DocRules

/-- How dispatching is to go on after an action. To skip the siblings is to skip the rest of the
element, its descendants and the siblings that follow it. -/
inductive Flow where
  | proceed
  | skipChildren
  | skipSiblings
deriving DecidableEq, Repr

/-- Why an action failed. -/
inductive Fault where
  | message (text : String)
  | missingAttribute (name tag : String)
  | unexpectedObject (expected : String)
  | substitution (fault : Substitution.Unclosed)
  | other (text : String)
deriving DecidableEq, Repr

def Fault.text : Fault → String
  | .message text => text
  | .missingAttribute name tag => s!"Missing required attribute '{name}' on <{tag}>"
  | .unexpectedObject expected =>
    s!"Unexpected object on top of the object stack, expected {expected}"
  | .substitution fault => s!"Variable substitution failed: {fault.message}"
  | .other text => text

/-- What an action does to the workspace at the start and at the end of an element and once the
document is over, and whether it applies, as a fallback, to the element at a path. A failure keeps
the changes made before it. -/
structure Behaviour (α : Type) where
  start : Workspace α → String → Attributes → Workspace α × Except Fault Flow
  stop : Workspace α → String → Workspace α × Except Fault Flow
  finish : Workspace α → Workspace α
  applies : Path → Attributes → Workspace α → Bool

end DocRules
