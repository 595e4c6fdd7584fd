import DocRules.Behaviour
import DocRules.Event
import DocRules.Rules

/-! # Dispatching events to actions

A dispatcher follows the elements of a document. At the start of an element it extends the path of
open elements, selects the actions that apply and calls them; at the end of the element it calls
the same actions again. Rules come first; only where none matches does the first applicable
fallback stand in.

Actions can abandon parts of a document. The dispatcher then remembers a path: that of the element
itself when its descendants are to be skipped (also after a failure at its start), that of its
parent when the siblings that follow are to be skipped (also after a failure at its end). While a
path is remembered no action is called for an element. The path is forgotten when the element that
it names ends; the end of that element belongs to the skipped part too.

Every invocation is recorded as a call with the workspace it was made on. -/

namespace DocRules

/-- The invocation of an action, with the workspace as the action found it. -/
inductive Call (ι α : Type) where
  | applies (action : ι) (path : Path) (attributes : Attributes) (workspace : Workspace α)
  | start (action : ι) (tag : String) (attributes : Attributes) (workspace : Workspace α)
  | stop (action : ι) (tag : String) (workspace : Workspace α)
  | finish (action : ι) (workspace : Workspace α)
deriving DecidableEq, Repr

/-- The state of dispatching one document: the path of the open elements, the actions selected for
each of them, innermost first, and the element at whose end dispatching resumes if a part is being
skipped. -/
structure Dispatcher (ι α : Type) where
  rules : RuleBook ι
  fallbacks : List ι
  workspace : Workspace α
  path : Path
  selected : List (Option (List ι))
  skip : Option Path

namespace Dispatcher

variable {ι α : Type}

def ofRules (rules : RuleBook ι) (fallbacks : List ι) (workspace : Workspace α) :
    Dispatcher ι α :=
  ⟨rules, fallbacks, workspace, .empty, [], none⟩

/-- The first fallback that applies to the element at a path, and the questions asked. -/
def firstApplicable (behaviour : ι → Behaviour α) (path : Path) (attributes : Attributes)
    (w : Workspace α) : List ι → Option ι × List (Call ι α)
  | [] => (none, [])
  | action :: others =>
    let call := Call.applies action path attributes w
    if (behaviour action).applies path attributes w then (some action, [call])
    else
      let (found, calls) := firstApplicable behaviour path attributes w others
      (found, call :: calls)

/-- The actions for the element at a path: those of its rule, else the first applicable fallback. -/
def select (behaviour : ι → Behaviour α) (d : Dispatcher ι α) (path : Path)
    (attributes : Attributes) : Option (List ι) × List (Call ι α) :=
  match d.rules.actionsAt? path with
  | some actions => (some actions, [])
  | none =>
    let (found, calls) := firstApplicable behaviour path attributes d.workspace d.fallbacks
    (found.map ([·]), calls)

def recordFault (w : Workspace α) (tag : String) (fault : Fault) : Workspace α :=
  let item := { LogItem.ofMessage .error s!"Exception in Action for tag <{tag}>" with
    cause := some fault.text }
  w.record (w.locate item)

/-- What running the actions of an element comes to. If one of them asked to skip or failed there is
an element whose end is to be waited for. -/
structure Pass (ι α : Type) where
  workspace : Workspace α
  skip : Option Path
  calls : List (Call ι α)

/-- Calls the actions of the element at `path` for its start, one after the other until one of them
asks to skip or fails. -/
def runStarts (behaviour : ι → Behaviour α) (path : Path) (tag : String)
    (attributes : Attributes) (w : Workspace α) : List ι → Pass ι α
  | [] => ⟨w, none, []⟩
  | action :: others =>
    let call := Call.start action tag attributes w
    match (behaviour action).start w tag attributes with
    | (w, .ok .proceed) =>
      let pass := runStarts behaviour path tag attributes w others
      { pass with calls := call :: pass.calls }
    | (w, .ok .skipChildren) => ⟨w, some path, [call]⟩
    | (w, .ok .skipSiblings) => ⟨w, some path.parent, [call]⟩
    | (w, .error fault) => ⟨recordFault w tag fault, some path, [call]⟩

/-- Calls the actions of the element at `path` for its end, one after the other until one of them
asks to skip the siblings or fails. The children are over, so asking to skip them means nothing. -/
def runStops (behaviour : ι → Behaviour α) (path : Path) (tag : String) (w : Workspace α) :
    List ι → Pass ι α
  | [] => ⟨w, none, []⟩
  | action :: others =>
    let call := Call.stop action tag w
    match (behaviour action).stop w tag with
    | (w, .ok .skipSiblings) => ⟨w, some path.parent, [call]⟩
    | (w, .error fault) => ⟨recordFault w tag fault, some path.parent, [call]⟩
    | (w, .ok .proceed) | (w, .ok .skipChildren) =>
      let pass := runStops behaviour path tag w others
      { pass with calls := call :: pass.calls }

def runFinishes (behaviour : ι → Behaviour α) (w : Workspace α) :
    List ι → Workspace α × List (Call ι α)
  | [] => (w, [])
  | action :: others =>
    let (w', calls) := runFinishes behaviour ((behaviour action).finish w) others
    (w', .finish action w :: calls)

def startElement (behaviour : ι → Behaviour α) (d : Dispatcher ι α) (tag : String)
    (attributes : Attributes) : Dispatcher ι α × List (Call ι α) :=
  let path := d.path.push tag
  let (actions?, questions) := d.select behaviour path attributes
  let d := { d with path, selected := actions? :: d.selected }
  -- while a part is skipped actions are selected, and missed, but not called
  match actions?, d.skip with
  | none, _ =>
    let message := s!"no applicable action for <{tag}>, current pattern is [{path}]"
    ({ d with workspace := d.workspace.warn message }, questions)
  | some _, some _ => (d, questions)
  | some actions, none =>
    let pass := runStarts behaviour path tag attributes d.workspace actions
    ({ d with workspace := pass.workspace, skip := pass.skip }, questions ++ pass.calls)

/-- The innermost open element ends, whatever its name. -/
def stopElement (behaviour : ι → Behaviour α) (d : Dispatcher ι α) (tag : String) :
    Dispatcher ι α × List (Call ι α) :=
  match d.selected with
  | [] =>
    let message := s!"end of element <{tag}> without a matching start"
    ({ d with workspace := d.workspace.warn message }, [])
  | actions? :: selected =>
    let closed := { d with path := d.path.parent, selected }
    match d.skip, actions? with
    -- the end that is waited for belongs to the skipped part too
    | some skip, _ => (if skip = d.path then { closed with skip := none } else closed, [])
    | none, none => (closed, [])
    | none, some actions =>
      let pass := runStops behaviour d.path tag d.workspace actions
      ({ closed with workspace := pass.workspace, skip := pass.skip }, pass.calls)

/-- The document is over: the distinct actions of the rules finish, then the fallbacks. -/
def endDocument [DecidableEq ι] (behaviour : ι → Behaviour α) (d : Dispatcher ι α) :
    Dispatcher ι α × List (Call ι α) :=
  let (workspace, calls) :=
    runFinishes behaviour d.workspace (d.rules.distinctActions ++ d.fallbacks)
  ({ d with workspace }, calls)

def handle [DecidableEq ι] (behaviour : ι → Behaviour α) (d : Dispatcher ι α) :
    Event → Dispatcher ι α × List (Call ι α)
  | .startDocument => (d, [])
  | .endDocument => d.endDocument behaviour
  | .moveTo p => ({ d with workspace := d.workspace.moveTo p }, [])
  | .startElement name attributes => d.startElement behaviour name.tag attributes
  | .endElement name => d.stopElement behaviour name.tag
  | .report level diagnostic =>
    ({ d with workspace := d.workspace.record (.ofReport level diagnostic) }, [])

def handleAll [DecidableEq ι] (behaviour : ι → Behaviour α) (d : Dispatcher ι α) :
    List Event → Dispatcher ι α × List (Call ι α)
  | [] => (d, [])
  | e :: events =>
    let (d, calls) := d.handle behaviour e
    let (d, more) := d.handleAll behaviour events
    (d, calls ++ more)

end Dispatcher

end DocRules
