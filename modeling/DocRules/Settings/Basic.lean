import DocRules.Table

/-! # Settings

How documents are read, and what their actions find among the properties. -/

namespace DocRules

/-- The namespace of logging configuration documents, which replayed elements are in. -/
def log4jSpace : String := "http://jakarta.apache.org/log4j/"

def loggingSpace : String := "http://logging.apache.org/"

/-- How a document is read: the namespaces whose elements are kept, and whether blanks before markup
are passed over rather than read as text. -/
structure ReadSettings where
  allowed : List String
  trim : Bool
deriving DecidableEq, Repr

namespace ReadSettings

/-- Both namespaces of configuration documents, without blanks. -/
def standard : ReadSettings := ⟨[log4jSpace, loggingSpace], true⟩

/-- Whether elements of a namespace are kept. Those in none, or in the empty one, always are. -/
def allows (s : ReadSettings) : Option String → Bool
  | none => true
  | some space => space.isEmpty || s.allowed.contains space

def allow (s : ReadSettings) (space : String) : ReadSettings :=
  { s with allowed := s.allowed ++ [space] }

end ReadSettings

/-- The settings of a session. The properties are set before a document is dispatched. -/
structure Settings where
  reading : ReadSettings
  properties : Table String
deriving DecidableEq, Repr

namespace Settings

def standard : Settings := ⟨.standard, .empty⟩

def setProperty (s : Settings) (key value : String) : Settings :=
  { s with properties := s.properties.insert key value }

end Settings

end DocRules
