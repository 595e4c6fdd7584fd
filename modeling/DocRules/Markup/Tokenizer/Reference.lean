import DocRules.Text.Digit
import DocRules.Text.Utf8

/-! # Character references

In the value of an attribute a reference stands for one character. It is written between an
ampersand and a semicolon, as one of five names or as a number. -/

namespace DocRules.Markup

/-- Why a number names no character. -/
inductive NumberFault where
  | sign
  | empty
  | digit
  | tooLarge
  | zero
  | notCharacter (n : Nat)
deriving DecidableEq, Repr

def NumberFault.message : NumberFault → String
  | .sign => "unexpected number sign"
  | .empty => "cannot parse integer from empty string"
  | .digit => "invalid digit found in string"
  | .tooLarge => "number too large to fit in target type"
  | .zero => "0x0 character is not permitted in XML"
  | .notCharacter n => s!"`{n}` is not a valid codepoint"

/-- Why a reference stands for nothing. Offsets count the bytes of the value. -/
inductive ReferenceFault where
  | unterminated (start stop : Nat)
  | unknown (start stop : Nat) (name : String)
  | number (fault : NumberFault)
deriving DecidableEq, Repr

def ReferenceFault.message : ReferenceFault → String
  | .unterminated start stop =>
    s!"Error while escaping character at range {start}..{stop}: Cannot find ';' after '&'"
  | .unknown start stop name => s!"at {start}..{stop}: unrecognized entity `{name}`"
  | .number fault => s!"invalid character reference: {fault.message}"

/-- Reads digits from left to right behind a number read so far. Of a bad digit and a number that
is too large, the one met first is reported. -/
def readDigits (base value : Nat) : List Char → Except NumberFault Nat
  | [] => .ok value
  | c :: digits =>
    match Text.digitValue? base c with
    | none => .error .digit
    | some d =>
      let value := value * base + d
      if value < 2 ^ 32 then readDigits base value digits else .error .tooLarge

def readNumber (base : Nat) (digits : List Char) : Except NumberFault Nat :=
  match digits with
  | [] => .error .empty
  | '+' :: _ => .error .sign
  | '-' :: _ => .error .sign
  | _ => readDigits base 0 digits

/-- The character with a number: hexadecimal after an `x`, else decimal. -/
def characterOf (number : List Char) : Except NumberFault Char := do
  let n ← match number with
    | 'x' :: digits => readNumber 16 digits
    | digits => readNumber 10 digits
  if n = 0 then throw .zero
  if n.isValidChar then return Char.ofNat n
  throw (.notCharacter n)

def namedCharacters : List (String × Char) :=
  [("lt", '<'), ("gt", '>'), ("amp", '&'), ("apos", '\x27'), ("quot", '"')]

/-- The character that stands for a reference whose text is at the given offsets. -/
def resolveReference (start stop : Nat) (name : List Char) : Except ReferenceFault Char :=
  match name with
  | '#' :: number => (characterOf number).mapError .number
  | _ =>
    match namedCharacters.lookup (String.ofList name) with
    | some c => .ok c
    | none => .error (.unknown start stop (String.ofList name))

/-- Resolves the references in a text that begins at `offset` of a value of `size` bytes, putting
`written`, last character first, in front of the result. -/
def unescapeFrom (size offset : Nat) (written text : List Char) : Except ReferenceFault String :=
  match text with
  | [] => .ok (String.ofList written.reverse)
  | c :: text =>
    if c == '&' then
      let inside (c : Char) : Bool := c != '&' && c != ';'
      let name := text.takeWhile inside
      match h : text.dropWhile inside with
      | ';' :: rest =>
        let stop := offset + 1 + Text.byteLength name
        match resolveReference (offset + 1) stop name with
        | .error fault => .error fault
        | .ok c =>
          have : rest.length < text.length := by
            have := (List.dropWhile_sublist inside (l := text)).length_le
            rw [h, List.length_cons] at this
            omega
          unescapeFrom size (stop + 1) (c :: written) rest
      | _ => .error (.unterminated offset size)
    else unescapeFrom size (offset + c.utf8Size) (c :: written) text
termination_by text.length
decreasing_by all_goals (simp only [List.length_cons]; omega)

/-- The value of an attribute written as `text`. -/
def unescape (text : List Char) : Except ReferenceFault String :=
  unescapeFrom (Text.byteLength text) 0 [] text

end DocRules.Markup
