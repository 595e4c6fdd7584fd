import DocRules.Text.Blank
import DocRules.Text.Cut
import DocRules.Text.Digit
import DocRules.Text.Utf8

/-! # Words, strings and numbers of JSON

The readers of this module take a text apart from the front. Each answers what it read together
with the rest of the text, which it knows to be no longer than what it was given.

A value that is only passed over is read less strictly than one that is wanted: the escapes of its
strings need not make characters, and its numbers may be of any size. -/

namespace DocRules.Json

/-- Why a text is refused: it is not JSON, a value is not of the type that is wanted in its place,
or the text ends too early. -/
inductive Fault where
  | malformed
  | mistyped
  | truncated
deriving DecidableEq, Repr

/-- A text that is no longer than another one. -/
abbrev Rest (text : List Char) := { rest : List Char // rest.length ≤ text.length }

/-- A text that is shorter than another one. -/
abbrev Shorter (text : List Char) := { rest : List Char // rest.length < text.length }

def Rest.whole (text : List Char) : Rest text := ⟨text, Nat.le_refl _⟩

def Shorter.toRest {text : List Char} (r : Shorter text) : Rest text := ⟨r.1, Nat.le_of_lt r.2⟩

def Shorter.andRest {text : List Char} (r : Shorter text) (s : Rest r.val) : Shorter text :=
  ⟨s.1, Nat.lt_of_le_of_lt s.2 r.2⟩

def Shorter.andShorter {text : List Char} (r : Shorter text) (s : Shorter r.val) : Shorter text :=
  r.andRest s.toRest

def Rest.andShorter {text : List Char} (r : Rest text) (s : Shorter r.val) : Shorter text :=
  ⟨s.1, Nat.lt_of_lt_of_le s.2 r.2⟩

theorem Shorter.length_lt {text : List Char} (r : Shorter text) :
    r.val.length < text.length := r.2

def skipBlanks (text : List Char) : Rest text :=
  ⟨text.dropWhile Text.isBlank, Text.length_dropWhile_le _ _⟩

/-- The first character that is no blank, and the text after it. -/
def nextChar (text : List Char) : Except Fault (Char × Shorter text) :=
  match skipBlanks text with
  | ⟨[], _⟩ => .error .truncated
  | ⟨c :: after, h⟩ => .ok (c, ⟨after, h⟩)

def readMark (mark : Char) (text : List Char) : Except Fault (Shorter text) := do
  let (c, rest) ← nextChar text
  if c == mark then return rest else throw .malformed

def readWord : (word text : List Char) → Except Fault (Rest text)
  | [], text => .ok (.whole text)
  | _ :: _, [] => .error .truncated
  | w :: word, c :: text =>
    if w == c then do
      let ⟨rest, h⟩ ← readWord word text
      return ⟨rest, by simp only [List.length_cons]; omega⟩
    else .error .malformed

/-! ## Strings -/

/-- The escapes of one letter and their characters. -/
def escapes : List (Char × Char) :=
  [('"', '"'), ('\\', '\\'), ('/', '/'), ('b', '\x08'), ('f', '\x0c'), ('n', '\n'), ('r', '\x0d'),
    ('t', '\t')]

/-- Reads four hexadecimal digits. Fewer than four bytes are too few to tell. -/
def readUnit (text : List Char) : Except Fault (Nat × Rest text) :=
  let digits := text.take 4
  if Text.byteLength digits < 4 then .error .truncated
  else
    match digits.mapM (Text.digitValue? 16) with
    | some values =>
      .ok (values.foldl (fun n d => n * 16 + d) 0, ⟨text.drop 4, by rw [List.length_drop]; omega⟩)
    | none => .error .malformed

/-- Reads the second half of a surrogate pair. -/
def readLowSurrogate (text : List Char) : Except Fault (Nat × Rest text) :=
  match text with
  | [] => .error .truncated
  | ['\\'] => .error .truncated
  | '\\' :: 'u' :: after => do
    let (low, ⟨rest, h⟩) ← readUnit after
    if 0xDC00 ≤ low && low ≤ 0xDFFF then
      return (low, ⟨rest, by simp only [List.length_cons]; omega⟩)
    else throw .malformed
  | _ => .error .malformed

/-- Reads a numbered escape after its letter. A surrogate has to be one of a pair, if `strict`. -/
def readNumbered (strict : Bool) (text : List Char) : Except Fault (Char × Rest text) := do
  let (unit, ⟨rest, h⟩) ← readUnit text
  if strict && 0xD800 ≤ unit && unit ≤ 0xDBFF then
    let (low, ⟨rest', h'⟩) ← readLowSurrogate rest
    return (Char.ofNat (0x10000 + (unit - 0xD800) * 0x400 + (low - 0xDC00)), ⟨rest', by omega⟩)
  else if strict && 0xDC00 ≤ unit && unit ≤ 0xDFFF then throw .malformed
  else return (Char.ofNat unit, ⟨rest, h⟩)

def readEscape (strict : Bool) (text : List Char) : Except Fault (Char × Rest text) :=
  match text with
  | [] => .error .truncated
  | c :: after =>
    if c == 'u' then do
      let (c, ⟨rest, h⟩) ← readNumbered strict after
      return (c, ⟨rest, by simp only [List.length_cons]; omega⟩)
    else
      match escapes.lookup c with
      | some c => .ok (c, ⟨after, by simp⟩)
      | none => .error .malformed

/-- Reads a string after its first quotation mark. -/
def readString (strict : Bool) (text : List Char) : Except Fault (String × Shorter text) :=
  go [] text
where
  /-- Here `written` is the text read so far, last character first. -/
  go (written text : List Char) : Except Fault (String × Shorter text) :=
    match text with
    | [] => .error .truncated
    | c :: after =>
      if c == '"' then .ok (String.ofList written.reverse, ⟨after, by simp⟩)
      else if c == '\\' then do
        let (c, ⟨rest, h⟩) ← readEscape strict after
        let (s, ⟨rest', h'⟩) ← go (c :: written) rest
        return (s, ⟨rest', by simp only [List.length_cons]; omega⟩)
      else if c < ' ' then .error .malformed
      else do
        let (s, ⟨rest, h⟩) ← go (c :: written) after
        return (s, ⟨rest, by simp only [List.length_cons]; omega⟩)
  termination_by text.length
  decreasing_by all_goals (simp only [List.length_cons]; omega)

/-! ## Numbers -/

/-- Reads at least one digit. If the text ends instead, the fault is `atEnd`. -/
def readDigits (atEnd : Fault) (text : List Char) : Except Fault (List Char × Shorter text) :=
  match h : text.takeWhile Char.isDigit with
  | [] => .error (if text.isEmpty then atEnd else .malformed)
  | d :: digits => .ok (d :: digits, ⟨text.dropWhile Char.isDigit, by
      have hl := congrArg List.length
        (List.takeWhile_append_dropWhile (p := Char.isDigit) (l := text))
      rw [List.length_append, h, List.length_cons] at hl
      omega⟩)

def readFraction (atEnd : Fault) (text : List Char) : Except Fault (List Char × Rest text) :=
  match text with
  | '.' :: after => do
    let (found, ⟨rest, h⟩) ← readDigits atEnd after
    return (found, ⟨rest, by rw [List.length_cons]; omega⟩)
  | other => .ok ([], .whole other)

/-- Reads an exponent, if there is one, and tells whether it is negative. -/
def readExponent (atEnd : Fault) (text : List Char) :
    Except Fault ((Bool × List Char) × Rest text) :=
  match text with
  | [] => .ok ((false, []), .whole [])
  | c :: after =>
    if c == 'e' || c == 'E' then
      match after with
      | '-' :: digits => do
        let (found, ⟨rest, h⟩) ← readDigits atEnd digits
        return ((true, found), ⟨rest, by simp only [List.length_cons]; omega⟩)
      | '+' :: digits => do
        let (found, ⟨rest, h⟩) ← readDigits atEnd digits
        return ((false, found), ⟨rest, by simp only [List.length_cons]; omega⟩)
      | digits => do
        let (found, ⟨rest, h⟩) ← readDigits atEnd digits
        return ((false, found), ⟨rest, by rw [List.length_cons]; omega⟩)
    else .ok ((false, []), .whole (c :: after))

/-- A number without its sign, as written. Its exponent is negative if it is `small`. -/
structure Numeral where
  whole : List Char
  fraction : List Char
  small : Bool
  exponent : List Char

/-- Reads a number after its sign. Where the text ends before a digit that has to follow, the fault
is `atEnd`. -/
def readNumeral (atEnd : Fault) (text : List Char) : Except Fault (Numeral × Shorter text) := do
  let (whole, ⟨rest, h⟩) ← readDigits atEnd text
  if whole.length > 1 && whole.head? == some '0' then throw .malformed
  let (fraction, ⟨rest', h'⟩) ← readFraction atEnd rest
  let ((small, exponent), ⟨rest'', h''⟩) ← readExponent atEnd rest'
  return (⟨whole, fraction, small, exponent⟩, ⟨rest'', by omega⟩)

namespace Numeral

def natOf (digits : List Char) : Nat :=
  digits.foldl (fun n c => n * 10 + (c.toNat - '0'.toNat)) 0

/-- Appends digits to a number as long as it fits into 64 bits, and counts those left over. -/
def leading (n : Nat) : List Char → Nat × Nat
  | [] => (n, 0)
  | c :: digits =>
    let next := n * 10 + (c.toNat - '0'.toNat)
    if next < 2 ^ 64 then leading next digits else (n, digits.length + 1)

/-- Whether the leading digits, scaled by the power of ten that their place and the exponent give,
are a finite double. -/
def isFinite (n : Numeral) : Bool :=
  let (whole, dropped) := leading 0 n.whole
  let (digits, ignored) := leading whole n.fraction
  let exponent : Int := if n.small then -(natOf n.exponent) else natOf n.exponent
  let scale := exponent + dropped - (n.fraction.length - ignored : Nat)
  if digits = 0 || scale < 0 then true
  else if scale > 308 then false
  else (Float.ofNat digits * Float.ofScientific 1 false scale.toNat).isFinite

end Numeral

end DocRules.Json
