import DocRules.Session
import DocRules.Settings.Json

/-! # Traces

A trace shows how a document is dispatched: one line for the start and one for the end of every
element, indented by its depth, and after them the problems that the run reported. It is made by an
action that accepts every element and keeps the depth in the workspace. -/

namespace DocRules.Trace

/-- The name under which the depth is kept. -/
def depthKey : String := "trace.depth"

def depthOf (w : Workspace Nat) : Nat := (w.get? depthKey).getD 0

/-- The action that follows every element. -/
def follow : Behaviour Nat where
  start w _ _ := (w.put depthKey (depthOf w + 1), .ok .proceed)
  stop w _ := (w.put depthKey (depthOf w - 1), .ok .proceed)
  finish w := w
  applies _ _ _ := true

/-- A line of the trace: the number of the document's line in five columns, the indentation, and the
tag. -/
def line (number depth : Nat) (tag : String) : String :=
  let digits := toString number
  let margin := "".pushn ' ' (5 - digits.length)
  let indentation := "".pushn ' ' (2 * depth)
  s!"{margin}{digits} {indentation}{tag}"

def showAttribute (a : Attribute) : String := s!" {a.name}=\"{a.value}\""

/-- The line that a call leaves. -/
def lineOf? : Call Unit Nat → Option String
  | .start _ tag attributes w =>
    let shown := String.join (attributes.toList.map showAttribute)
    some (line w.line (depthOf w) s!"<{tag}{shown}>")
  | .stop _ tag w => some (line w.line (depthOf w - 1) s!"</{tag}>")
  | .applies .. | .finish .. => none

/-- The lines that report a log. -/
def problems (log : List LogItem) : List String :=
  if log.isEmpty then []
  else "" :: s!"{log.length} problem(s) reported:" :: log.map fun item => s!"  {item}"

/-- What tracing a document prints, and whether it succeeds. -/
structure Report where
  lines : List String
  success : Bool
deriving DecidableEq, Repr

def Report.failure : Report := ⟨[], false⟩

def Report.text (r : Report) : String := String.join (r.lines.map (· ++ "\n"))

/-- The session that a trace runs its document in. -/
def sessionOf (settings : Settings) : Session Unit Nat := ⟨.empty, [()], settings, .empty⟩

def ofFile (settings : Settings) (path : String) (opened : Except String Stream) : Report :=
  let run := (sessionOf settings).runFile (fun _ => follow) path opened
  ⟨run.calls.filterMap lineOf? ++ problems run.session.workspace.log, run.outcome.isOk⟩

/-- The settings in a file, if it can be read and holds any. -/
def settingsOf? (opened : Except String Stream) : Option Settings := do
  let stream ← opened.toOption
  let text ← stream.text.toOption
  (Settings.ofJson text).toOption

/-- Traces as the arguments say, of which the first names the document and the second, if there is
one, its settings. `openFile` answers for the files that they name. -/
def ofArguments (arguments : List String) (openFile : String → Except String Stream) : Report :=
  match arguments with
  | [path] => ofFile .standard path (openFile path)
  | [path, settingsPath] =>
    match settingsOf? (openFile settingsPath) with
    | some settings => ofFile settings path (openFile path)
    | none => .failure
  | _ => .failure

end DocRules.Trace
