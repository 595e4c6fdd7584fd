import DocRules.Trace

/-! # Command line

Traces the document that the first argument names, with the settings that the second one names. -/

namespace DocRules

def systemReason : IO.Error → String
  | .noFileOrDirectory _ code _ => s!"No such file or directory (os error {code})"
  | .inappropriateType _ code details | .permissionDenied _ code details
  | .resourceExhausted _ code details | .invalidArgument _ code details =>
    s!"{details} (os error {code})"
  | .hardwareFault code details | .otherError code details | .unsupportedOperation code details =>
    s!"{details} (os error {code})"
  | problem => toString problem

/-- The stream that a file brings, or the reason why it cannot be opened. -/
def openFile (path : String) : IO (Except String Stream) := do
  match ← (IO.FS.Handle.mk path .read).toBaseIO with
  | .error problem => return .error (systemReason problem)
  | .ok file =>
    match ← file.readBinToEnd.toBaseIO with
    | .ok bytes => return .ok [.bytes bytes.data.toList]
    | .error problem => return .ok [.failure (systemReason problem)]

end DocRules

def main (arguments : List String) : IO UInt32 := do
  if arguments.length = 0 || arguments.length > 2 then
    IO.eprintln "Traces how a configuration document is dispatched.\n"
    IO.eprintln "Usage: docrules <path/to/document.xml> [path/to/settings.json]"
  let opened ← arguments.mapM fun path => return (path, ← DocRules.openFile path)
  let report := DocRules.Trace.ofArguments arguments fun path =>
    (opened.lookup path).getD (.error "not opened")
  IO.print report.text
  return if report.success then 0 else 1
