import DocRules.Position.Basic

/-! # Locating offsets in one pass

A cursor turns byte offsets into positions and remembers how far it has counted, so that a
sequence of growing offsets costs one pass over the document. An offset that lies behind the
cursor is located from the start and does not move it. -/

namespace DocRules.Position

/-- A place in a byte sequence: the bytes not yet passed and the number of those passed, with the
line of the place and the offset at which that line starts. -/
structure Cursor where
  bytes : List UInt8
  size : Nat
  ahead : List UInt8
  offset : Nat
  line : Nat
  lineStart : Nat

namespace Cursor

def ofBytes (bytes : List UInt8) : Cursor := ⟨bytes, bytes.length, bytes, 0, 1, 0⟩

/-- The cursor `n` bytes further on, or at the end. -/
def advance : Nat → Cursor → Cursor
  | 0, c => c
  | n + 1, c =>
    match c.ahead with
    | [] => c
    | b :: ahead =>
      let offset := c.offset + 1
      if b == newline then
        advance n { c with ahead, offset, line := c.line + 1, lineStart := offset }
      else advance n { c with ahead, offset }

/-- The position of an offset, and the cursor moved there if the offset is not behind it. -/
def locate (c : Cursor) (target : Nat) : Cursor × Position :=
  let target := min target c.size
  if target < c.offset then (c, ofOffset c.bytes target)
  else
    let moved := c.advance (target - c.offset)
    (moved, ⟨moved.line, target - moved.lineStart + 1⟩)

end Cursor

end DocRules.Position
