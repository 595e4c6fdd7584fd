import DocRules.Log
import DocRules.Substitution
import DocRules.Table

/-! # Workspace

What the actions of one document share: a stack and a table of objects, the log, the properties
that substitution looks up, and the position of the event at hand. The objects are of any type
`α`; an operation that wants one of a particular kind is given a view that recognises it. -/

namespace DocRules

/-- The shared state of the actions of one document: the objects under construction, topmost first,
and the named ones, the log, oldest entry first, the properties, and the position of the event at
hand, once there was one. -/
structure Workspace (α : Type) where
  stack : List α
  objects : Table α
  log : List LogItem
  properties : Table String
  position : Option Position
deriving DecidableEq, Inhabited, Repr

namespace Workspace

variable {α β : Type}

def empty : Workspace α := ⟨[], .empty, [], .empty, none⟩

/-! ## The stack -/

def push (w : Workspace α) (x : α) : Workspace α := { w with stack := x :: w.stack }

def top? (w : Workspace α) : Option α := w.stack.head?

def pop? (w : Workspace α) : Option (α × Workspace α) :=
  match w.stack with
  | [] => none
  | x :: rest => some (x, { w with stack := rest })

/-- Takes the topmost object off the stack if the view recognises it, and leaves it otherwise. -/
def popAs? (w : Workspace α) (view : α → Option β) : Option (β × Workspace α) :=
  match w.stack with
  | [] => none
  | x :: rest => (view x).map fun y => (y, { w with stack := rest })

/-- Changes the topmost object where `change` knows how to. -/
def modifyTop? (w : Workspace α) (change : α → Option α) : Option (Workspace α) :=
  match w.stack with
  | [] => none
  | x :: rest => (change x).map fun y => { w with stack := y :: rest }

/-- The object at an index counted from the bottom of the stack. -/
def fromBottom? (w : Workspace α) (i : Nat) : Option α := w.stack.reverse[i]?

def depth (w : Workspace α) : Nat := w.stack.length

/-! ## The table of objects -/

/-- Names an object, in place of the one that had the name. -/
def put (w : Workspace α) (key : String) (x : α) : Workspace α :=
  { w with objects := w.objects.insert key x }

def get? (w : Workspace α) (key : String) : Option α := w.objects.get? key

/-- Changes the object with a name where `change` knows how to. -/
def modify? (w : Workspace α) (key : String) (change : α → Option α) : Option (Workspace α) :=
  ((w.get? key).bind change).map (w.put key)

def take? (w : Workspace α) (key : String) : Option (α × Workspace α) :=
  (w.get? key).map fun x => (x, { w with objects := w.objects.erase key })

def contains (w : Workspace α) (key : String) : Bool := w.objects.contains key

/-! ## The log -/

/-- Appends an entry as it is. -/
def record (w : Workspace α) (item : LogItem) : Workspace α := { w with log := w.log ++ [item] }

def recordAll (w : Workspace α) (items : List LogItem) : Workspace α :=
  { w with log := w.log ++ items }

/-- The entry with the current position, unless it has one already. -/
def locate (w : Workspace α) (item : LogItem) : LogItem :=
  match item.position with
  | some _ => item
  | none => { item with position := w.position }

def warn (w : Workspace α) (message : String) : Workspace α :=
  w.record (w.locate (.ofMessage .warning message))

def clearLog (w : Workspace α) : Workspace α := { w with log := [] }

/-- Whether anything worse than a warning is in the log. -/
def hasErrors (w : Workspace α) : Bool := w.log.any fun item => decide (Level.error ≤ item.level)

/-! ## Properties and position -/

def setProperty (w : Workspace α) (key value : String) : Workspace α :=
  { w with properties := w.properties.insert key value }

def setProperties (w : Workspace α) (properties : Table String) : Workspace α :=
  { w with properties := w.properties.insertAll properties }

def property? (w : Workspace α) (key : String) : Option String := w.properties.get? key

def moveTo (w : Workspace α) (p : Position) : Workspace α := { w with position := some p }

/-- The current line, zero if unknown. -/
def line (w : Workspace α) : Nat := (w.position.map (·.line)).getD 0

def column (w : Workspace α) : Nat := (w.position.map (·.column)).getD 0

/-- Expands the references in a text. A malformed text stays as it is and is reported in the log. -/
def expand (w : Workspace α) (environment : String → Option String) (value : String) :
    String × Workspace α :=
  match Substitution.expand w.properties environment value with
  | .ok text => (text, w)
  | .error fault =>
    let item := { LogItem.ofMessage .error "Variable substitution failed" with
      cause := some fault.message }
    (value, w.record (w.locate item))

end Workspace

end DocRules
