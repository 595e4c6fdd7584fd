import DocRules.Log
import DocRules.Text.Utf8

/-! # Streams of bytes

A document may come from a stream that is read piece by piece. -/

namespace DocRules

/-- The answer to one attempt to read. An interrupted one is to be repeated; after a failure the
stream cannot be read on. -/
inductive Reading where
  | bytes (chunk : List UInt8)
  | interrupted
  | failure (reason : String)
deriving DecidableEq, Repr

/-- A stream, as the answers that it gives until it is over. -/
abbrev Stream := List Reading

/-- All bytes of a stream, or the reason why they could not be read. -/
def Stream.contents : Stream → Except String (List UInt8)
  | [] => .ok []
  | .bytes chunk :: rest => (Stream.contents rest).map (chunk ++ ·)
  | .interrupted :: rest => Stream.contents rest
  | .failure reason :: _ => .error reason

/-- Why a document could not be had from its source. -/
inductive SourceFault where
  | fatal (d : Diagnostic)
  | io (reason : String)
  | utf8 (fault : Text.Utf8Fault)
deriving DecidableEq, Repr

def SourceFault.message : SourceFault → String
  | .fatal d => s!"Fatal parse error: {d}"
  | .io reason => s!"I/O error: {reason}"
  | .utf8 fault => s!"UTF-8 encoding error: {fault.message}"

def textOfBytes (bytes : List UInt8) : Except SourceFault String :=
  (Text.decodeUtf8 bytes).mapError .utf8

def Stream.text (stream : Stream) : Except SourceFault String :=
  match stream.contents with
  | .ok bytes => textOfBytes bytes
  | .error reason => .error (.io reason)

end DocRules
