/-! # Names and attributes of elements -/

namespace DocRules

structure Attribute where
  name : String
  value : String
deriving DecidableEq, Repr

/-- The attributes of one element in document order. A name may occur more than once. -/
structure Attributes where
  toList : List Attribute
deriving DecidableEq, Inhabited, Repr

namespace Attributes

def empty : Attributes := ⟨[]⟩

def push (as : Attributes) (a : Attribute) : Attributes := ⟨as.toList ++ [a]⟩

/-- The value of the first attribute with this name. -/
def get? (as : Attributes) (name : String) : Option String :=
  (as.toList.find? (·.name == name)).map (·.value)

def contains (as : Attributes) (name : String) : Bool := (as.get? name).isSome

def length (as : Attributes) : Nat := as.toList.length

def isEmpty (as : Attributes) : Bool := as.toList.isEmpty

end Attributes

/-- The name of an element: the namespace, if it is in one, the name inside of it, and the name as
the document writes it. -/
structure ElementName where
  space : Option String
  localName : String
  qualifiedName : String
deriving DecidableEq, Repr

namespace ElementName

def plain (name : String) : ElementName := ⟨none, name, name⟩

/-- The name that rules speak of: the local name, or the qualified one where that is empty. -/
def tag (name : ElementName) : String :=
  if name.localName.isEmpty then name.qualifiedName else name.localName

end ElementName

end DocRules
