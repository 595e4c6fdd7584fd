import DocRules.Event
import DocRules.Settings.Basic
import DocRules.Stream

/-! # Recordings

A recording takes in the events of a document before any action sees them. It keeps the elements
whose namespace is allowed, each with its position, and puts every diagnostic into a log. Only a
recording without a fatal diagnostic can be replayed. -/

namespace DocRules

/-- An element event that was kept. -/
inductive Recorded where
  | start (tag : String) (attributes : Attributes) (position : Position)
  | stop (tag : String) (position : Position)
deriving DecidableEq, Repr

/-- The events that replaying brings about. Every element is in the one namespace and has its tag
for both of its names. -/
def Recorded.events : Recorded → List Event
  | .start tag attributes p =>
    [.moveTo p, .startElement ⟨some log4jSpace, tag, tag⟩ attributes]
  | .stop tag p => [.moveTo p, .endElement ⟨some log4jSpace, tag, tag⟩]

/-- What was recorded of a document: the elements kept and the diagnostics, both in document order,
and the first fatal diagnostic. -/
structure Recording where
  settings : ReadSettings
  elements : Array Recorded
  log : List LogItem
  fatal : Option Diagnostic
  position : Position
deriving DecidableEq, Repr

namespace Recording

def ofSettings (settings : ReadSettings) : Recording := ⟨settings, #[], [], none, .start⟩

/-- The recording with one more element event, if elements of the namespace are kept. -/
def keep (r : Recording) (space : Option String) (e : Recorded) : Recording :=
  if r.settings.allows space then { r with elements := r.elements.push e } else r

def handle (r : Recording) : Event → Recording
  | .startDocument | .endDocument => r
  | .moveTo p => { r with position := p }
  | .startElement name attributes => r.keep name.space (.start name.tag attributes r.position)
  | .endElement name => r.keep name.space (.stop name.tag r.position)
  | .report level d =>
    { r with
      log := r.log ++ [.ofReport level d]
      fatal := if level = .fatal then r.fatal.or (some d) else r.fatal }

def handleAll (r : Recording) (events : List Event) : Recording := events.foldl handle r

def clearLog (r : Recording) : Recording := { r with log := [] }

/-- The recorded elements as a document of their own, or the first fatal diagnostic. -/
def replay (r : Recording) : Except SourceFault (List Event) :=
  match r.fatal with
  | some d => .error (.fatal d)
  | none =>
    .ok (.startDocument :: (r.elements.toList.flatMap Recorded.events ++ [.endDocument]))

end Recording

end DocRules
