import DocRules.Rules
import DocRules.Text.Unprintable
import DocRules.Workspace

/-! # Inspection

Texts that show the state of a rule book or of a workspace for debugging. -/

namespace DocRules.Inspect

/-- A character inside of quotation marks. One that cannot be shown, or not on its own, is given by
its code point. -/
def quoteChar (c : Char) : String :=
  if c == '"' then "\\\""
  else if c == '\\' then "\\\\"
  else if c == '\n' then "\\n"
  else if c == '\t' then "\\t"
  else if c == '\x0d' then "\\r"
  else if c == '\x00' then "\\0"
  else if Text.isExtender c || Text.isUnprintable c then
    "\\u\x7b" ++ String.ofList (Nat.toDigits 16 c.toNat) ++ "\x7d"
  else String.singleton c

/-- A text in quotation marks, with what would be misread inside of them escaped. -/
def quote (text : String) : String := "\"" ++ String.join (text.toList.map quoteChar) ++ "\""

def list (items : List String) : String := "[" ++ ", ".intercalate items ++ "]"

def map (entries : List (String × String)) : String :=
  "\x7b" ++ ", ".intercalate (entries.map fun (k, v) => s!"{k}: {v}") ++ "\x7d"

def record (name : String) (fields : List (String × String)) : String :=
  name ++ " \x7b " ++ ", ".intercalate (fields.map fun (k, v) => s!"{k}: {v}") ++ " \x7d"

def optional {β : Type} (inspect : β → String) : Option β → String
  | none => "None"
  | some x => s!"Some({inspect x})"

def position (p : Position) : String :=
  record "Location" [("line", toString p.line), ("col", toString p.column)]

def level : Level → String
  | .warning => "Warning"
  | .error => "Error"
  | .fatal => "Fatal"

def logItem (item : LogItem) : String :=
  record "ErrorItem"
    [("level", level item.level), ("message", quote item.message),
      ("cause", optional quote item.cause), ("location", optional position item.position)]

/-- A workspace, of whose objects only the number on the stack and the names in the table are
shown. -/
def workspace {α : Type} (w : Workspace α) : String :=
  record "ExecutionContext"
    [("object_stack", toString w.depth), ("object_map", list (w.objects.keys.map quote)),
      ("errors", list (w.log.map logItem)),
      ("properties", map (w.properties.entries.map fun (k, v) => (quote k, quote v))),
      ("location", optional position w.position)]

def ruleBook {ι : Type} (label : ι → String) (book : RuleBook ι) : String :=
  map (book.rules.toList.map fun rule =>
    (quote rule.key.render, list (rule.actions.map fun action => quote (label action))))

end DocRules.Inspect
