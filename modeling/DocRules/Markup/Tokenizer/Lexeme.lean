import DocRules.Text.Blank
import DocRules.Text.Cut
import DocRules.Text.Utf8

/-! # Lexemes of a document

A document is a sequence of lexemes: tags, declarations of the document type, and everything that
carries no event, which is text, references, comments, character data sections and processing
instructions. Nothing is checked here about names, nesting or the number of roots.

A lexeme is placed by the bytes before it and the bytes up to its end. Reading ends where the input
does, or at the first lexeme that is malformed. -/

namespace DocRules.Markup

/-- A piece of a document. The content of a tag is its name and its attributes; that of a document
type declaration begins with the name of the type. -/
inductive Lexeme where
  | startTag (content : List Char)
  | emptyTag (content : List Char)
  | endTag (name : List Char)
  | doctype (content : List Char)
  | silent
deriving DecidableEq, Repr

/-- Why a piece is malformed. One that was not begun as its first characters promise counts as
unclosed too. -/
inductive LexFault where
  | unclosedTag
  | unknownMarkup
  | unclosedCharacterData
  | unclosedComment
  | unclosedDoctype
  | unnamedDoctype
  | unclosedInstruction
  | unclosedReference
deriving DecidableEq, Repr

def LexFault.message : LexFault → String
  | .unclosedTag => "syntax error: tag not closed: `>` not found before end of input"
  | .unknownMarkup => "syntax error: unknown or missed symbol in markup"
  | .unclosedCharacterData => "syntax error: CDATA not closed: `]]>` not found before end of input"
  | .unclosedComment => "syntax error: comment not closed: `-->` not found before end of input"
  | .unclosedDoctype => "syntax error: DOCTYPE not closed: `>` not found before end of input"
  | .unnamedDoctype =>
    "ill-formed document: `<!DOCTYPE>` declaration does not contain a name of a document type"
  | .unclosedInstruction =>
    "syntax error: processing instruction or xml declaration not closed: `?>` not found before end of input"
  | .unclosedReference =>
    "ill-formed document: entity or character reference not closed: `;` not found before end of input"

/-- A lexeme found at the beginning of a text, the number of its bytes, and the text after it. -/
structure Scan where
  lexeme : Lexeme
  width : Nat
  rest : List Char

/-- A malformed lexeme at the beginning of a text, and the number of bytes from there to the place
that the fault is reported at. -/
structure Stop where
  fault : LexFault
  offset : Nat

/-! ## Ends of tags and declarations -/

def isQuote (c : Char) : Bool := c == '"' || c == '\x27'

/-- Splits at the first closing bracket outside quotation marks. -/
def cutTag (text : List Char) : Option (List Char × List Char) :=
  go none [] text
where
  /-- Here `quote` is the quotation mark that is open and `before` the text passed, last character
  first. -/
  go (quote : Option Char) (before : List Char) : List Char → Option (List Char × List Char)
    | [] => none
    | c :: rest =>
      match quote with
      | some q => go (if c == q then none else quote) (c :: before) rest
      | none =>
        if c == '>' then some (before.reverse, rest)
        else go (if isQuote c then some c else none) (c :: before) rest

/-- Splits at the closing bracket that matches the one opened before the text. -/
def cutBracket (text : List Char) : Option (List Char × List Char) :=
  go 0 [] text
where
  /-- Here `inner` is the number of brackets opened in the text and `before` the text passed, last
  character first. -/
  go (inner : Nat) (before : List Char) : List Char → Option (List Char × List Char)
    | [] => none
    | c :: rest =>
      if c == '>' then
        match inner with
        | 0 => some (before.reverse, rest)
        | inner + 1 => go inner (c :: before) rest
      else go (if c == '<' then inner + 1 else inner) (c :: before) rest

/-! ## The kinds of lexemes

Each function is given the text after the characters that tell the kind. -/

/-- The name in a closing tag: blanks after it do not belong to it, unless there is nothing else. -/
def endTagName (content : List Char) : List Char :=
  if content.all Text.isBlank then content else Text.dropTrailing Text.isBlank content

def scanTag (text : List Char) : Except Stop Scan :=
  match cutTag text with
  | none => .error ⟨.unclosedTag, 0⟩
  | some (content, rest) =>
    let lexeme := match content with
      | '/' :: name => Lexeme.endTag (endTagName name)
      | _ =>
        if content.getLast? == some '/' then .emptyTag content.dropLast else .startTag content
    .ok ⟨lexeme, Text.byteLength content + 2, rest⟩

/-- A character data section, after the bracket that follows the exclamation mark. -/
def scanCharacterData (text : List Char) : Except Stop Scan :=
  match Text.afterMark? "CDATA[".toList text with
  | none => .error ⟨.unclosedCharacterData, 0⟩
  | some body =>
    match Text.cutAtMark "]]>".toList body with
    | none => .error ⟨.unclosedCharacterData, 0⟩
    | some (content, rest) => .ok ⟨.silent, Text.byteLength content + 12, rest⟩

/-- A comment, after its first dash. -/
def scanComment (text : List Char) : Except Stop Scan :=
  match text with
  | '-' :: body =>
    match Text.cutAtMark "-->".toList body with
    | none => .error ⟨.unclosedComment, 0⟩
    | some (content, rest) => .ok ⟨.silent, Text.byteLength content + 7, rest⟩
  | _ => .error ⟨.unclosedComment, 0⟩

/-- A document type declaration, after its first letter. Its keyword may be in any letter case. -/
def scanDoctype (text : List Char) : Except Stop Scan :=
  if (text.take 6).map Char.toUpper = "OCTYPE".toList then
    match cutBracket (text.drop 6) with
    | none => .error ⟨.unclosedDoctype, 0⟩
    | some (content, rest) =>
      let width := Text.byteLength content + 10
      match content.dropWhile Text.isBlank with
      | [] => .error ⟨.unnamedDoctype, width - 1⟩
      | declared => .ok ⟨.doctype declared, width, rest⟩
  else .error ⟨.unclosedDoctype, 0⟩

/-- A processing instruction, after its first question mark, which cannot be its last one too. -/
def scanInstruction (text : List Char) : Except Stop Scan :=
  match text with
  | '>' :: _ => .error ⟨.unclosedInstruction, 0⟩
  | _ =>
    match Text.cutAtMark "?>".toList text with
    | none => .error ⟨.unclosedInstruction, 0⟩
    | some (content, rest) => .ok ⟨.silent, Text.byteLength content + 4, rest⟩

def scanMarkup (text : List Char) : Except Stop Scan :=
  match text with
  | [] => .error ⟨.unclosedTag, 0⟩
  | '!' :: '[' :: body => scanCharacterData body
  | '!' :: '-' :: body => scanComment body
  | '!' :: 'D' :: body => scanDoctype body
  | '!' :: 'd' :: body => scanDoctype body
  | '!' :: _ => .error ⟨.unknownMarkup, 0⟩
  | '?' :: body => scanInstruction body
  | _ => scanTag text

/-- A reference, after its ampersand. It may name anything, but ends before the next markup. -/
def scanReference (text : List Char) : Except Stop Scan :=
  let inside (c : Char) : Bool := c != ';' && c != '&' && c != '<'
  match text.dropWhile inside with
  | ';' :: rest => .ok ⟨.silent, Text.byteLength (text.takeWhile inside) + 2, rest⟩
  | _ => .error ⟨.unclosedReference, 0⟩

def scan (c : Char) (text : List Char) : Except Stop Scan :=
  if c == '<' then scanMarkup text
  else if c == '&' then scanReference text
  else
    let plain (c : Char) : Bool := c != '<' && c != '&'
    .ok ⟨.silent, c.utf8Size + Text.byteLength (text.takeWhile plain), text.dropWhile plain⟩

/-! ## Lexemes get shorter -/

theorem cutTag.length_le_of_go {quote : Option Char} {before text a rest : List Char}
    (h : go quote before text = some (a, rest)) : rest.length ≤ text.length := by
  induction text generalizing quote before with
  | nil => simp [go] at h
  | cons c text ih =>
    unfold go at h
    simp only [List.length_cons]
    split at h
    · have := ih h
      omega
    · split at h
      · simp only [Option.some.injEq, Prod.mk.injEq] at h
        rw [← h.2]
        omega
      · have := ih h
        omega

theorem cutBracket.length_le_of_go {inner : Nat} {before text a rest : List Char}
    (h : go inner before text = some (a, rest)) : rest.length ≤ text.length := by
  induction text generalizing inner before with
  | nil => simp [go] at h
  | cons c text ih =>
    unfold go at h
    simp only [List.length_cons]
    split at h
    · split at h
      · simp only [Option.some.injEq, Prod.mk.injEq] at h
        rw [← h.2]
        omega
      · have := ih h
        omega
    · have := ih h
      omega

theorem length_rest_scanTag {text : List Char} {s : Scan} (h : scanTag text = .ok s) :
    s.rest.length ≤ text.length := by
  unfold scanTag at h
  split at h
  · contradiction
  · rename_i content rest hc
    cases h
    exact cutTag.length_le_of_go hc

theorem length_rest_scanCharacterData {text : List Char} {s : Scan}
    (h : scanCharacterData text = .ok s) : s.rest.length ≤ text.length := by
  unfold scanCharacterData at h
  split at h
  · contradiction
  · rename_i body hb
    split at h
    · contradiction
    · rename_i content rest hc
      cases h
      have hl := Text.length_le_of_cutAtMark hc
      have ht := Text.length_le_of_afterMark? hb
      simp only
      omega

theorem length_rest_scanComment {text : List Char} {s : Scan} (h : scanComment text = .ok s) :
    s.rest.length ≤ text.length := by
  unfold scanComment at h
  split at h
  · rename_i body
    split at h
    · contradiction
    · rename_i content rest hc
      cases h
      have := Text.length_le_of_cutAtMark hc
      simp only [List.length_cons]
      omega
  · contradiction

theorem length_rest_scanDoctype {text : List Char} {s : Scan} (h : scanDoctype text = .ok s) :
    s.rest.length ≤ text.length := by
  unfold scanDoctype at h
  split at h
  · split at h
    · contradiction
    · rename_i content rest hc
      split at h
      · contradiction
      · cases h
        have hl := cutBracket.length_le_of_go hc
        rw [List.length_drop] at hl
        simp only
        omega
  · contradiction

theorem length_rest_scanInstruction {text : List Char} {s : Scan}
    (h : scanInstruction text = .ok s) : s.rest.length ≤ text.length := by
  unfold scanInstruction at h
  split at h
  · contradiction
  · split at h
    · contradiction
    · rename_i content rest hc
      cases h
      exact Text.length_le_of_cutAtMark hc

theorem length_rest_scanMarkup {text : List Char} {s : Scan} (h : scanMarkup text = .ok s) :
    s.rest.length ≤ text.length := by
  unfold scanMarkup at h
  split at h
  · contradiction
  · have := length_rest_scanCharacterData h
    simp only [List.length_cons]
    omega
  · have := length_rest_scanComment h
    simp only [List.length_cons]
    omega
  · have := length_rest_scanDoctype h
    simp only [List.length_cons]
    omega
  · have := length_rest_scanDoctype h
    simp only [List.length_cons]
    omega
  · contradiction
  · have := length_rest_scanInstruction h
    simp only [List.length_cons]
    omega
  · exact length_rest_scanTag h

theorem length_rest_scanReference {text : List Char} {s : Scan} (h : scanReference text = .ok s) :
    s.rest.length ≤ text.length := by
  unfold scanReference at h
  simp only at h
  split at h
  · rename_i rest hd
    cases h
    have hl := Text.length_dropWhile_le (fun c => c != ';' && c != '&' && c != '<') text
    rw [hd, List.length_cons] at hl
    simp only
    omega
  · contradiction

theorem length_rest_scan {c : Char} {text : List Char} {s : Scan} (h : scan c text = .ok s) :
    s.rest.length ≤ text.length := by
  unfold scan at h
  split at h
  · exact length_rest_scanMarkup h
  · split at h
    · exact length_rest_scanReference h
    · cases h
      exact Text.length_dropWhile_le _ _

/-! ## The sequence of lexemes -/

/-- The lexemes of a document, each with the byte offsets of its two ends, and how they end. -/
inductive Lexemes where
  | eof (offset : Nat)
  | fault (fault : LexFault) (offset : Nat)
  | next (start stop : Nat) (lexeme : Lexeme) (rest : Lexemes)
deriving Repr

/-- The lexemes of a text that begins at `offset`. With `trim`, blanks before a lexeme are passed
over; without it they are text like any other. -/
def lexemesFrom (trim : Bool) (offset : Nat) (text : List Char) : Lexemes :=
  let blanks := if trim then text.takeWhile Text.isBlank else []
  let start := offset + Text.byteLength blanks
  match h : text.drop blanks.length with
  | [] => .eof start
  | c :: body =>
    match hs : scan c body with
    | .error stop => .fault stop.fault (start + stop.offset)
    | .ok s =>
      have : s.rest.length < text.length := by
        have hl := length_rest_scan hs
        have ht := congrArg List.length h
        rw [List.length_drop, List.length_cons] at ht
        omega
      .next start (start + s.width) s.lexeme (lexemesFrom trim (start + s.width) s.rest)
termination_by text.length

def lexemes (trim : Bool) (text : List Char) : Lexemes := lexemesFrom trim 0 text

end DocRules.Markup
