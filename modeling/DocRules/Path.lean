/-! # Element paths

A path lists the names of nested elements from the outside in. The same type serves as the path of
the elements that are open and as the key of a rule; a key whose first segment is the wildcard
stands for every path that ends like it. -/

namespace DocRules

/-- A sequence of element names, outermost first. A parsed path has no empty name and none with a
slash; one built by `push` may. -/
structure Path where
  segments : List String
deriving DecidableEq, Hashable, Inhabited, Repr

namespace Path

/-- The segment that opens a key matching by its tail. -/
def wildcard : String := "*"

def empty : Path := ⟨[]⟩

/-- The piece before the first slash, and the pieces after each slash. -/
def pieces : List Char → List Char × List (List Char)
  | [] => ([], [])
  | c :: text =>
    let (first, others) := pieces text
    if c == '/' then ([], first :: others) else (c :: first, others)

/-- Reads segments separated by slashes. Empty segments are dropped, so leading, trailing and
repeated slashes do not matter. -/
def parse (text : String) : Path :=
  let (first, others) := pieces text.toList
  ⟨((first :: others).filter (fun piece => !piece.isEmpty)).map String.ofList⟩

/-- Writes a slash before every segment. -/
def render (p : Path) : String := String.join (p.segments.map ("/" ++ ·))

instance : ToString Path := ⟨render⟩

def push (p : Path) (segment : String) : Path := ⟨p.segments ++ [segment]⟩

/-- The path without its last segment; the empty path is its own parent. -/
def parent (p : Path) : Path := ⟨p.segments.dropLast⟩

def length (p : Path) : Nat := p.segments.length

def isEmpty (p : Path) : Bool := p.segments.isEmpty

def last? (p : Path) : Option String := p.segments.getLast?

/-- The name at a depth, counted from the outside. -/
def get? (p : Path) (i : Nat) : Option String := p.segments[i]?

/-- How many segments two paths share, counted from their ends up to the first difference. -/
def tailMatch (p q : Path) : Nat :=
  ((p.segments.reverse.zip q.segments.reverse).takeWhile fun (a, b) => a == b).length

/-- Whether the path is a key that matches by its tail: a wildcard with something after it. -/
def isTailKey (p : Path) : Bool := p.length > 1 && p.segments.head? == some wildcard

def tailSuffix? (p : Path) : Option Path :=
  if p.isTailKey then some ⟨p.segments.tail⟩ else none

end Path

end DocRules
