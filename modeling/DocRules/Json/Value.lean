import DocRules.Json.Token

/-! # Values of JSON

Readers for the values that a caller wants, and one for a value that nobody wants. A value of
another type than the wanted one is told by its first token: the token has to be well-formed, but
what follows it is not looked at. -/

namespace DocRules.Json

/-- The fault of a reader that was not meant to succeed. -/
def Fault.ofToken {β : Type} : Except Fault β → Fault
  | .error fault => fault
  | .ok _ => .mistyped

/-- The fault of a number in the place of another value. It has to be one that a double can hold. -/
def numberFault (text : List Char) : Fault :=
  match readNumeral .truncated text with
  | .error fault => fault
  | .ok (n, _) => if n.isFinite then .mistyped else .malformed

/-- The fault of a value that begins with `c`, in the place of one of another type. -/
def mistypedAt (c : Char) (after : List Char) : Fault :=
  if c == '[' || c == '\x7b' then .mistyped
  else if c == 'n' then .ofToken (readWord "ull".toList after)
  else if c == 't' then .ofToken (readWord "rue".toList after)
  else if c == 'f' then .ofToken (readWord "alse".toList after)
  else if c == '"' then .ofToken (readString true after)
  else if c == '-' then numberFault after
  else if c.isDigit then numberFault (c :: after)
  else .malformed

/-- A reader of a value, which takes at least one character. -/
abbrev Reader (β : Type) := (text : List Char) → Except Fault (β × Shorter text)

/-- Reads a value whose kind is told by its first character. -/
def readAt {β : Type}
    (read : (c : Char) → (after : List Char) → Except Fault (β × Rest after)) : Reader β :=
  fun text => do
    let (c, after) ← nextChar text
    let (value, rest) ← read c after.val
    return (value, after.andRest rest)

def readBool : Reader Bool :=
  readAt fun c after =>
    if c == 't' then (readWord "rue".toList after).map (true, ·)
    else if c == 'f' then (readWord "alse".toList after).map (false, ·)
    else .error (mistypedAt c after)

def readText : Reader String :=
  readAt fun c after =>
    if c == '"' then (readString true after).map fun (s, rest) => (s, rest.toRest)
    else .error (mistypedAt c after)

/-! ## Lists and objects -/

/-- Whether an element follows in a list, and the text that it or the closing bracket begins. A
comma has to stand before every element but the `first`. -/
def nextElement (first : Bool) (text : List Char) : Except Fault (Bool × Rest text) := do
  let (c, after) ← nextChar text
  if c == ']' then return (false, .whole text)
  else if first then return (true, .whole text)
  else if c == ',' then
    let (d, _) ← nextChar after.val
    if d == ']' then throw .malformed
    return (true, after.toRest)
  else throw .malformed

def readKey (strict : Bool) (text : List Char) : Except Fault (String × Shorter text) := do
  let (c, after) ← nextChar text
  if c == '"' then
    let (key, rest) ← readString strict after.val
    return (key, after.andShorter rest)
  else throw .malformed

/-- Reads the next key of an object, or `none` and the closing brace. A comma has to stand before
every key but the `first`. -/
def nextKey (first : Bool) (text : List Char) : Except Fault (Option String × Shorter text) := do
  let (c, after) ← nextChar text
  if c == '\x7d' then return (none, after)
  else if first then
    let (key, rest) ← readKey true text
    return (some key, rest)
  else if c == ',' then
    let (key, rest) ← readKey true after.val
    return (some key, after.andShorter rest)
  else throw .malformed

def readElements {β : Type} (read : Reader β) (first : Bool) (text : List Char) :
    Except Fault (List β × Shorter text) := do
  let (more, rest) ← nextElement first text
  if more then
    let (value, behind) ← read rest.val
    let behind := rest.andShorter behind
    let (values, last) ← readElements read false behind.val
    return (value :: values, behind.andShorter last)
  else
    let last ← readMark ']' rest.val
    return ([], rest.andShorter last)
termination_by text.length
decreasing_by exact Shorter.length_lt _

def readList {β : Type} (read : Reader β) : Reader (List β) :=
  readAt fun c after =>
    if c == '[' then
      (readElements read true after).map fun (values, rest) => (values, rest.toRest)
    else .error (mistypedAt c after)

def readEntries {β : Type} (read : Reader β) (first : Bool) (text : List Char) :
    Except Fault (List (String × β) × Shorter text) := do
  let (key?, rest) ← nextKey first text
  match key? with
  | none => return ([], rest)
  | some key =>
    let colon ← readMark ':' rest.val
    let (value, behind) ← read colon.val
    let behind := rest.andShorter (colon.andShorter behind)
    let (entries, last) ← readEntries read false behind.val
    return ((key, value) :: entries, behind.andShorter last)
termination_by text.length
decreasing_by exact Shorter.length_lt _

/-- Reads an object whose values are all of one type. -/
def readObject {β : Type} (read : Reader β) : Reader (List (String × β)) :=
  readAt fun c after =>
    if c == '\x7b' then
      (readEntries read true after).map fun (entries, rest) => (entries, rest.toRest)
    else .error (mistypedAt c after)

/-! ## Values to pass over -/

/-- What a value may be inside of. -/
inductive Container where
  | list
  | object
deriving DecidableEq

def Container.close : Container → Char
  | .list => ']'
  | .object => '\x7d'

/-- Passes over a value without parts that begins with `c`. -/
def skipScalar (c : Char) (after : List Char) : Except Fault (Rest after) :=
  if c == 'n' then readWord "ull".toList after
  else if c == 't' then readWord "rue".toList after
  else if c == 'f' then readWord "alse".toList after
  else if c == '"' then (readString false after).map fun (_, rest) => rest.toRest
  else if c == '-' then
    (readNumeral .malformed after).map fun (_, rest) => rest.toRest
  else if c.isDigit then
    (readNumeral .malformed (c :: after)).map fun (_, ⟨rest, h⟩) =>
      ⟨rest, Nat.le_of_lt_succ h⟩
  else .error .malformed

def skipKey (text : List Char) : Except Fault (Shorter text) := do
  let (_, rest) ← readKey false text
  let colon ← readMark ':' rest.val
  return rest.andShorter colon

mutual

/-- Passes over a value and everything after it up to the end of the outermost of the containers
that it is inside of. -/
def skipIn (outer : List Container) (text : List Char) : Except Fault (List Char) :=
  match nextChar text with
  | .error fault => .error fault
  | .ok (c, ⟨after, _⟩) =>
    if c == '[' then
      match nextChar after with
      | .ok (']', ⟨rest, _⟩) => skipAfter outer rest
      | _ => skipIn (.list :: outer) after
    else if c == '\x7b' then
      match nextChar after with
      | .ok ('\x7d', ⟨rest, _⟩) => skipAfter outer rest
      | _ =>
        match skipKey after with
        | .error fault => .error fault
        | .ok ⟨rest, _⟩ => skipIn (.object :: outer) rest
    else
      match skipScalar c after with
      | .error fault => .error fault
      | .ok ⟨rest, _⟩ => skipAfter outer rest
termination_by text.length
decreasing_by all_goals omega

def skipAfter (outer : List Container) (text : List Char) : Except Fault (List Char) :=
  match outer with
  | [] => .ok text
  | container :: outer =>
    match nextChar text with
    | .error fault => .error fault
    | .ok (c, ⟨after, _⟩) =>
      if c == ',' then
        match container with
        | .list => skipIn (.list :: outer) after
        | .object =>
          match skipKey after with
          | .error fault => .error fault
          | .ok ⟨rest, _⟩ => skipIn (.object :: outer) rest
      else if c == container.close then skipAfter outer after
      else .error .malformed
termination_by text.length
decreasing_by all_goals omega

end

mutual

/-- A value takes at least one character. -/
theorem length_lt_of_skipIn {outer : List Container} {text rest : List Char}
    (h : skipIn outer text = .ok rest) : rest.length < text.length := by
  unfold skipIn at h
  split at h
  · contradiction
  · rename_i c after hc _
    split at h
    · split at h
      · rename_i behind hb _
        have := length_le_of_skipAfter h
        omega
      · have := length_lt_of_skipIn h
        omega
    · split at h
      · split at h
        · rename_i behind hb _
          have := length_le_of_skipAfter h
          omega
        · split at h
          · contradiction
          · rename_i behind hb _
            have := length_lt_of_skipIn h
            omega
      · split at h
        · contradiction
        · rename_i behind hb _
          have := length_le_of_skipAfter h
          omega
termination_by text.length
decreasing_by all_goals omega

/-- What follows a value may be nothing. -/
theorem length_le_of_skipAfter {outer : List Container} {text rest : List Char}
    (h : skipAfter outer text = .ok rest) : rest.length ≤ text.length := by
  unfold skipAfter at h
  split at h
  · cases h
    exact Nat.le_refl _
  · split at h
    · contradiction
    · rename_i c after hc _
      split at h
      · split at h
        · have := length_lt_of_skipIn h
          omega
        · split at h
          · contradiction
          · rename_i behind hb _
            have := length_lt_of_skipIn h
            omega
      · split at h
        · have := length_le_of_skipAfter h
          omega
        · contradiction
termination_by text.length
decreasing_by all_goals omega

end

def skipValue (text : List Char) : Except Fault (Shorter text) :=
  match h : skipIn [] text with
  | .error fault => .error fault
  | .ok rest => .ok ⟨rest, length_lt_of_skipIn h⟩

end DocRules.Json
