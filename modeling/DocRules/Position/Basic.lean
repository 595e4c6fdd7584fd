/-! # Positions in a document

Lines and columns are counted from one. A column counts bytes, so the position of an offset is
determined by the bytes before it. -/

namespace DocRules

/-- A line and a column, which counts bytes. -/
structure Position where
  line : Nat
  column : Nat
deriving DecidableEq, Inhabited, Repr

namespace Position

def newline : UInt8 := 10

def start : Position := ⟨1, 1⟩

/-- The position just after the first `offset` bytes, or after all of them if there are fewer. -/
def ofOffset (bytes : List UInt8) (offset : Nat) : Position :=
  let before := bytes.take offset
  ⟨before.count newline + 1, (before.reverse.takeWhile (· != newline)).length + 1⟩

instance : ToString Position := ⟨fun p => s!"line {p.line}, column {p.column}"⟩

end Position

end DocRules
