import DocRules.Table
import DocRules.Text.Cut
import DocRules.Text.Utf8

/-! # Variable substitution

A reference is a dollar sign, an opening brace, a key and the next closing brace. Substitution
replaces every reference by the value of its key and copies all other text. What was inserted is
not looked at again. An opening that no brace closes makes the whole text malformed. -/

namespace DocRules.Substitution

/-- An opening without a closing brace, at a byte offset of the text that was to be expanded. -/
structure Unclosed where
  value : String
  offset : Nat
deriving DecidableEq, Repr

/-- The text of the fault. The value is quoted as it is. -/
def Unclosed.message (fault : Unclosed) : String :=
  s!"\"{fault.value}\" has no closing brace. Opening brace at position {fault.offset}."

/-- The value of a key: that of the property, else that of the environment variable. A key that
cannot name a variable, or that nothing defines, has none. -/
def lookup (properties : Table String) (environment : String → Option String) (key : String) :
    Option String :=
  match properties.get? key with
  | some value => some value
  | none =>
    if key.isEmpty || key.toList.contains '=' || key.toList.contains '\x00' then none
    else environment key

/-- Expands the references in a text that begins at `offset`, putting `written`, last character
first, in front of the result; an unclosed opening is answered by its offset. -/
def expandFrom (value? : String → Option String) (offset : Nat) (written text : List Char) :
    Except Nat String :=
  match text with
  | [] => .ok (String.ofList written.reverse)
  | '$' :: '\x7b' :: rest =>
    match h : Text.cutAt '\x7d' rest with
    | none => .error offset
    | some (key, after) =>
      have := Text.length_lt_of_cutAt h
      let inserted := ((value? (String.ofList key)).getD "").toList
      expandFrom value? (offset + 3 + Text.byteLength key) (inserted.reverseAux written) after
  | c :: rest => expandFrom value? (offset + c.utf8Size) (c :: written) rest
termination_by text.length
decreasing_by all_goals (simp only [List.length_cons]; omega)

def expand (properties : Table String) (environment : String → Option String) (value : String) :
    Except Unclosed String :=
  match expandFrom (lookup properties environment) 0 [] value.toList with
  | .ok text => .ok text
  | .error offset => .error ⟨value, offset⟩

end DocRules.Substitution
