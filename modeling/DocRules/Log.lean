import DocRules.Position.Basic

/-! # Diagnostics and the log

A diagnostic is what reading a document complains about; a log item is an entry of the log that
accompanies a document through reading and dispatching. -/

namespace DocRules

/-- How serious a problem is: nothing was lost, something was left out, or the document cannot be
used. -/
inductive Level where
  | warning
  | error
  | fatal
deriving DecidableEq, Repr

namespace Level

def rank : Level → Nat
  | .warning => 0
  | .error => 1
  | .fatal => 2

instance : LE Level := ⟨fun a b => a.rank ≤ b.rank⟩

instance (a b : Level) : Decidable (a ≤ b) := inferInstanceAs (Decidable (a.rank ≤ b.rank))

instance : Ord Level := ⟨fun a b => compare a.rank b.rank⟩

def label : Level → String
  | .warning => "WARN"
  | .error => "ERROR"
  | .fatal => "FATAL"

/-- The word that names a reading problem of the level. -/
def parsingMessage : Level → String
  | .warning => "Parsing warning"
  | .error => "Parsing error"
  | .fatal => "Parsing fatal error"

end Level

/-- A problem met while reading, and where. -/
structure Diagnostic where
  message : String
  position : Position
deriving DecidableEq, Repr

instance : ToString Diagnostic := ⟨fun d => s!"{d.message} at {d.position}"⟩

/-- An entry of the log, with the text of the underlying problem as its cause. -/
structure LogItem where
  level : Level
  message : String
  cause : Option String
  position : Option Position
deriving DecidableEq, Repr

namespace LogItem

def ofMessage (level : Level) (message : String) : LogItem := ⟨level, message, none, none⟩

/-- An entry about a diagnostic, whose text becomes the cause and whose position is kept. -/
def ofDiagnostic (level : Level) (message : String) (d : Diagnostic) : LogItem :=
  ⟨level, message, some d.message, some d.position⟩

def ofReport (level : Level) (d : Diagnostic) : LogItem :=
  ofDiagnostic level level.parsingMessage d

/-- The level and the message, then the position in parentheses and the cause after a colon where
they are known. -/
def render (item : LogItem) : String :=
  let place := match item.position with
    | some p => s!" ({p})"
    | none => ""
  let reason := match item.cause with
    | some text => s!": {text}"
    | none => ""
  s!"{item.level.label} {item.message}{place}{reason}"

instance : ToString LogItem := ⟨render⟩

end LogItem

end DocRules
