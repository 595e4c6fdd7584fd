import DocRules.Json.Value
import DocRules.Settings.Basic

/-! # Settings as JSON

Settings are a record of two optional fields, one of which is again such a record. A record is
written as an object, whose unknown keys are passed over, or as the list of its fields, which may
stop early. A field that is not given has its standard value. -/

namespace DocRules.Json

variable {β γ : Type}

/-- Reads the entries of a record written as an object, and its closing brace. A field that is given
twice is mistyped. -/
def readFields (nameA : String) (readA : Reader β) (nameB : String) (readB : Reader γ)
    (first : Bool) (a? : Option β) (b? : Option γ) (text : List Char) :
    Except Fault ((Option β × Option γ) × Shorter text) := do
  let (key?, rest) ← nextKey first text
  match key? with
  | none => return ((a?, b?), rest)
  | some key =>
    if key = nameA then
      if a?.isSome then throw .mistyped
      let colon ← readMark ':' rest.val
      let (a, behind) ← readA colon.val
      let behind := rest.andShorter (colon.andShorter behind)
      let (fields, last) ← readFields nameA readA nameB readB false (some a) b? behind.val
      return (fields, behind.andShorter last)
    else if key = nameB then
      if b?.isSome then throw .mistyped
      let colon ← readMark ':' rest.val
      let (b, behind) ← readB colon.val
      let behind := rest.andShorter (colon.andShorter behind)
      let (fields, last) ← readFields nameA readA nameB readB false a? (some b) behind.val
      return (fields, behind.andShorter last)
    else
      let colon ← readMark ':' rest.val
      let behind ← skipValue colon.val
      let behind := rest.andShorter (colon.andShorter behind)
      let (fields, last) ← readFields nameA readA nameB readB false a? b? behind.val
      return (fields, behind.andShorter last)
termination_by text.length
decreasing_by all_goals exact Shorter.length_lt _

/-- Reads the elements of a record written as a list, and its closing bracket. -/
def readPositions (readA : Reader β) (readB : Reader γ) (text : List Char) :
    Except Fault ((Option β × Option γ) × Shorter text) := do
  let (more, rest) ← nextElement true text
  if !more then
    let last ← readMark ']' rest.val
    return ((none, none), rest.andShorter last)
  let (a, behind) ← readA rest.val
  let behind := rest.andShorter behind
  let (more, rest) ← nextElement false behind.val
  let rest := behind.andRest rest
  if !more then
    let last ← readMark ']' rest.val
    return ((some a, none), rest.andShorter last)
  let (b, behind) ← readB rest.val
  let behind := rest.andShorter behind
  let last ← readMark ']' behind.val
  return ((some a, some b), behind.andShorter last)

def readRecord (nameA : String) (readA : Reader β) (nameB : String) (readB : Reader γ) :
    Reader (Option β × Option γ) :=
  readAt fun c after =>
    if c == '\x7b' then
      (readFields nameA readA nameB readB true none none after).map fun (fields, rest) =>
        (fields, rest.toRest)
    else if c == '[' then
      (readPositions readA readB after).map fun (fields, rest) => (fields, rest.toRest)
    else .error (mistypedAt c after)

def readReadSettings : Reader ReadSettings := fun text =>
  (readRecord "allowed_namespaces" (readList readText) "trim_text" readBool text).map
    fun ((allowed?, trim?), rest) =>
      (⟨allowed?.getD ReadSettings.standard.allowed, trim?.getD ReadSettings.standard.trim⟩, rest)

def readSettings : Reader Settings := fun text =>
  (readRecord "source" readReadSettings "properties" (readObject readText) text).map
    fun ((reading?, properties?), rest) =>
      (⟨reading?.getD .standard, .ofList (properties?.getD [])⟩, rest)

end DocRules.Json

namespace DocRules

/-- The settings that a JSON text describes. Nothing but blanks may follow them. -/
def Settings.ofJson (text : String) : Except Json.Fault Settings := do
  let (settings, ⟨rest, _⟩) ← Json.readSettings text.toList
  if rest.all Text.isBlank then return settings else throw .malformed

end DocRules
