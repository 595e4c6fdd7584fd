import DocRules.Markup.Tokenizer.Namespace

/-! # Tokens

The tokenizer hands on the lexemes of a text one after the other, as tokens. It remembers which tags
are open and what is declared inside them: it stops at a tag that closes another element and at a
declaration that is not allowed, and it resolves the name of every tag. Whoever takes the tokens sees
neither the open tags nor the declarations. The content of a tag comes as it stands; the assignments
in it, and the references in their values, are read when they are asked for. -/

namespace DocRules.Markup

/-- Why there are no more tokens. -/
inductive TokenFault where
  | lexeme (fault : LexFault)
  | mismatchedEnd (expected found : String)
  | unmatchedEnd (found : String)
  | scope (fault : ScopeFault)
deriving DecidableEq, Repr

def TokenFault.message : TokenFault → String
  | .lexeme fault => fault.message
  | .mismatchedEnd expected found =>
    s!"ill-formed document: expected `</{expected}>`, but `</{found}>` was found"
  | .unmatchedEnd found =>
    s!"ill-formed document: close tag `</{found}>` does not match any open tag"
  | .scope fault => fault.message

/-- An element as its tags name it: the name as written, and the namespace that it resolves to or the
qualifier that nothing declares. -/
structure Tag where
  name : List Char
  space : Except String (Option String)

/-- A piece of a text. A tag that begins an element comes with its content, which has the
attributes. -/
inductive Token where
  | startTag (tag : Tag) (content : List Char)
  | emptyTag (tag : Tag) (content : List Char)
  | endTag (tag : Tag)
  | doctype (content : List Char)
  | silent

/-- Tokens, each with the offset just behind it, and how they end. -/
inductive Tokens where
  | eof (offset : Nat)
  | fault (fault : TokenFault) (offset : Nat)
  | next (stop : Nat) (token : Token) (rest : Tokens)

/-! ## Open tags -/

/-- The name in the content of a tag. -/
def nameOf (content : List Char) : List Char := content.takeWhile (!Text.isBlank ·)

/-- What follows the name in the content of a tag. -/
def attributesOf (content : List Char) : List Char := content.dropWhile (!Text.isBlank ·)

/-- A tag that is open, with the declarations in force inside it. -/
structure OpenTag where
  name : List Char
  scope : Scope

/-- The tag with this content, inside a scope. -/
def OpenTag.ofContent (scope : Scope) (content : List Char) : Except ScopeFault OpenTag := do
  let scope ← enterScope scope (attributesOf content)
  return ⟨nameOf content, scope⟩

/-- The name is resolved inside the tag, so by its own declarations too. -/
def OpenTag.resolved (opened : OpenTag) : Tag :=
  ⟨opened.name, resolveQualifier opened.scope (splitName opened.name).1⟩

/-- The declarations in force, where the innermost open tag comes first. -/
def scopeIn (opened : List OpenTag) : Scope := (opened.head?.map (·.scope)).getD []

/-! ## From lexemes to tokens -/

/-- The token of a lexeme and the tags that are open behind it, or what is wrong and the offset that
it is reported at: of a declaration that is the beginning of the text, of a tag the beginning of the
tag. -/
def tokenOf (opened : List OpenTag) (start : Nat) :
    Lexeme → Except (TokenFault × Nat) (Token × List OpenTag)
  | .silent => .ok (.silent, opened)
  | .doctype content => .ok (.doctype content, opened)
  | .startTag content =>
    match OpenTag.ofContent (scopeIn opened) content with
    | .ok inner => .ok (.startTag inner.resolved content, inner :: opened)
    | .error fault => .error (.scope fault, 0)
  | .emptyTag content =>
    match OpenTag.ofContent (scopeIn opened) content with
    -- its declarations count for itself only
    | .ok inner => .ok (.emptyTag inner.resolved content, opened)
    | .error fault => .error (.scope fault, 0)
  | .endTag name =>
    match opened with
    | [] => .error (.unmatchedEnd (String.ofList name), start)
    | inner :: opened =>
      if name = inner.name then .ok (.endTag inner.resolved, opened)
      else .error (.mismatchedEnd (String.ofList inner.name) (String.ofList name), start)

def tokensFrom (opened : List OpenTag) : Lexemes → Tokens
  | .eof offset => .eof offset
  | .fault fault offset => .fault (.lexeme fault) offset
  | .next start stop lexeme rest =>
    match tokenOf opened start lexeme with
    | .error (fault, offset) => .fault fault offset
    | .ok (token, opened) => .next stop token (tokensFrom opened rest)

def dropByteOrderMark : List Char → List Char
  | '\ufeff' :: text => text
  | text => text

/-- The tokens of a text. A byte order mark is passed over and its bytes are not counted. -/
def tokens (trim : Bool) (text : List Char) : Tokens :=
  tokensFrom [] (lexemes trim (dropByteOrderMark text))

end DocRules.Markup
