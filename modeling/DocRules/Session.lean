import DocRules.Dispatch
import DocRules.Markup.Document
import DocRules.Recording

/-! # Sessions

A session runs documents against rules in two passes. The first pass records the document; the
second replays the recording to the actions. A document with a fatal problem never reaches an
action. The workspace outlives each document, so what is put there before a run and what is logged
during it stays available. -/

namespace DocRules

/-- A session between two documents. -/
structure Session (ι α : Type) where
  rules : RuleBook ι
  fallbacks : List ι
  settings : Settings
  workspace : Workspace α

/-- What is logged last when a document is given up. -/
def abandonMessage : String :=
  "Problem parsing XML document. See previously reported errors. Abandoning all further processing."

/-- Why a document was not run: it was abandoned for its first fatal problem, which ends the log, or
it could not be had. -/
inductive RunFault where
  | abandoned (fatal : Diagnostic) (log : List LogItem)
  | io (reason : String)
  | source (fault : SourceFault)
deriving DecidableEq, Repr

namespace RunFault

def ofSource : SourceFault → RunFault
  | .io reason => .io reason
  | fault => .source fault

def message : RunFault → String
  | .abandoned fatal _ => s!"{abandonMessage} (first fatal error: {fatal})"
  | .io reason => s!"I/O error: {reason}"
  | .source fault => s!"Source error: {fault.message}"

end RunFault

/-- What running a document comes to. -/
structure Run (ι α : Type) where
  session : Session ι α
  outcome : Except RunFault Unit
  calls : List (Call ι α)

namespace Session

variable {ι α : Type}

/-- The run of a document that no action saw, with one more entry in the log. -/
def refuse (s : Session ι α) (item : LogItem) (fault : RunFault) : Run ι α :=
  ⟨{ s with workspace := s.workspace.record item }, .error fault, []⟩

/-- The first pass over a text. -/
def record (s : Session ι α) (text : String) : Recording :=
  (Recording.ofSettings s.settings.reading).handleAll
    (Markup.readDocument s.settings.reading.trim text)

/-- The workspace that the second pass begins with: the diagnostics of the first are logged and the
properties of the settings are set. -/
def prepared (s : Session ι α) (r : Recording) : Workspace α :=
  (s.workspace.recordAll r.log).setProperties s.settings.properties

/-- The second pass over a recording. -/
def play [DecidableEq ι] (behaviour : ι → Behaviour α) (s : Session ι α) (r : Recording) :
    Run ι α :=
  let w := s.prepared r
  match r.replay with
  | .ok events =>
    let (d, calls) := (Dispatcher.ofRules s.rules s.fallbacks w).handleAll behaviour events
    ⟨{ s with workspace := d.workspace }, .ok (), calls⟩
  | .error (.fatal d) =>
    let w := w.record (.ofMessage .error abandonMessage)
    ⟨{ s with workspace := w }, .error (.abandoned d w.log), []⟩
  | .error fault => ⟨{ s with workspace := w }, .error (.ofSource fault), []⟩

def runText [DecidableEq ι] (behaviour : ι → Behaviour α) (s : Session ι α) (text : String) :
    Run ι α :=
  s.play behaviour (s.record text)

def runStream [DecidableEq ι] (behaviour : ι → Behaviour α) (s : Session ι α) (stream : Stream) :
    Run ι α :=
  match stream.text with
  | .ok text => s.runText behaviour text
  | .error fault =>
    let message := match fault with
      | .io _ => "I/O error occurred while parsing xml file"
      | _ => "Could not decode xml file"
    s.refuse { LogItem.ofMessage .error message with cause := some fault.message } (.ofSource fault)

/-- Runs the document in a file, given the stream that opening the file brought or the reason why it
could not be opened. -/
def runFile [DecidableEq ι] (behaviour : ι → Behaviour α) (s : Session ι α) (path : String)
    (opened : Except String Stream) : Run ι α :=
  match opened with
  | .ok stream => s.runStream behaviour stream
  | .error reason =>
    s.refuse { LogItem.ofMessage .error s!"Could not open [{path}]." with cause := some reason }
      (.io reason)

end Session

end DocRules
