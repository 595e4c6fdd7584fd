import DocRules.Markup.Tokenizer.Attribute

/-! # Namespaces

A name may have a qualifier before its first colon. Which namespace a qualifier stands for is
declared in the attributes of an element, for the element itself and all inside it. The innermost
declaration counts, and of two in one tag the later one. -/

namespace DocRules.Markup

/-- A namespace that the standard of markup reserves. -/
def reservedSpace (place : String) : String := "http://www.w3.org/" ++ place

def xmlSpace : String := reservedSpace "XML/1998/namespace"

def xmlnsSpace : String := reservedSpace "2000/xmlns/"

/-- The declarations in force, each with the qualifier it declares and the value it gives, the one
that counts first. The empty qualifier stands for names without one. -/
abbrev Scope := List (String × String)

/-- A declaration that is not allowed. -/
inductive ScopeFault where
  | declaresXml (value : String)
  | declaresXmlns (value : String)
  | reserved (qualifier space : String)
deriving DecidableEq, Repr

/-- A text in quotation marks, as bytes: those that are no printable ASCII in hexadecimal. -/
def quoteBytes (text : String) : String :=
  let quoteByte (b : UInt8) : String :=
    if b == 34 then "\\\""
    else if 32 ≤ b && b ≤ 126 then String.singleton (Char.ofNat b.toNat)
    else "0x" ++ String.ofList ((Nat.toDigits 16 b.toNat).map Char.toUpper)
  s!"\"{String.join ((Text.utf8 text.toList).map quoteByte)}\""

def ScopeFault.message : ScopeFault → String
  | .declaresXml value => s!"the namespace prefix 'xml' cannot be bound to '{quoteBytes value}'"
  | .declaresXmlns value => s!"the namespace prefix 'xmlns' cannot be bound to '{quoteBytes value}'"
  | .reserved qualifier space =>
    s!"the namespace prefix '{quoteBytes qualifier}' cannot be bound to '{space}'"

/-- The qualifier that an attribute with this name declares, if it declares one. -/
def declaredQualifier? (name : String) : Option String :=
  match Text.afterMark? "xmlns".toList name.toList with
  | some [] => some ""
  | some (':' :: qualifier) => some (String.ofList qualifier)
  | _ => none

/-- The scope with one more assignment. The plain `xmlns` may declare anything. -/
def declare (scope : Scope) (a : Assignment) : Except ScopeFault Scope :=
  match declaredQualifier? a.name with
  | none => .ok scope
  | some qualifier =>
    let value := String.ofList a.value
    if a.name = "xmlns" then .ok (("", value) :: scope)
    else if qualifier = "xml" then
      if value = xmlSpace then .ok scope else .error (.declaresXml value)
    else if qualifier = "xmlns" then .error (.declaresXmlns value)
    else if value = xmlSpace then .error (.reserved qualifier xmlSpace)
    else if value = xmlnsSpace then .error (.reserved qualifier xmlnsSpace)
    else .ok ((qualifier, value) :: scope)

/-- The assignments before the first malformed one. -/
def wellFormed : List (Except AttributeFault Assignment) → List Assignment
  | .ok a :: results => a :: wellFormed results
  | _ => []

/-- The scope inside a tag, from the scope around it and the text after the tag's name. What follows
a malformed assignment declares nothing; a name may be declared twice. -/
def enterScope (scope : Scope) (attributes : List Char) : Except ScopeFault Scope :=
  (wellFormed (assignmentsFrom false [] 0 attributes)).foldlM declare scope

def splitName (name : List Char) : Option (List Char) × List Char :=
  match Text.cutAt ':' name with
  | some (qualifier, rest) => (some qualifier, rest)
  | none => (none, name)

/-- The namespace that names without a qualifier, or with this one, are in; `none` if they are in
none, and a fault that returns the qualifier if nothing declares it. An empty value undoes a
declaration. -/
def resolveQualifier (scope : Scope) : Option (List Char) → Except String (Option String)
  | none =>
    match scope.lookup "" with
    | some value => .ok (if value.isEmpty then none else some value)
    | none => .ok none
  | some letters =>
    let qualifier := String.ofList letters
    if qualifier = "xml" then .ok (some xmlSpace)
    else if qualifier = "xmlns" then .ok (some xmlnsSpace)
    else if qualifier.isEmpty then .error qualifier
    else
      match scope.lookup qualifier with
      | some value => if value.isEmpty then .error qualifier else .ok (some value)
      | none => .error qualifier

end DocRules.Markup
