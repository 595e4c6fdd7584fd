/-! # UTF-8

The bytes of a text, and what is wrong with bytes that are no text. -/

namespace DocRules.Text

def utf8 (text : List Char) : List UInt8 := text.flatMap String.utf8EncodeChar

def byteLength (text : List Char) : Nat := text.foldl (fun n c => n + c.utf8Size) 0

/-- Counting on from a number adds it. -/
theorem foldl_utf8Size (n : Nat) (text : List Char) :
    text.foldl (fun n c => n + c.utf8Size) n = n + byteLength text := by
  induction text generalizing n with
  | nil => rfl
  | cons c text ih =>
    rw [byteLength, List.foldl_cons, List.foldl_cons, ih (n + c.utf8Size), ih (0 + c.utf8Size)]
    omega

@[simp]
theorem byteLength_nil : byteLength [] = 0 := rfl

@[simp]
theorem byteLength_cons (c : Char) (text : List Char) :
    byteLength (c :: text) = c.utf8Size + byteLength text := by
  rw [byteLength, List.foldl_cons, foldl_utf8Size, Nat.zero_add]

@[simp]
theorem byteLength_append (a b : List Char) :
    byteLength (a ++ b) = byteLength a + byteLength b := by
  rw [byteLength, List.foldl_append, foldl_utf8Size]
  rfl

@[simp]
theorem utf8_append (a b : List Char) : utf8 (a ++ b) = utf8 a ++ utf8 b := by
  simp [utf8]

/-- The byte length counts the bytes. -/
@[simp]
theorem length_utf8 (text : List Char) : (utf8 text).length = byteLength text := by
  induction text with
  | nil => rfl
  | cons c text ih =>
    rw [utf8, List.flatMap_cons, List.length_append, ← utf8, ih]
    simp

/-- Where a byte sequence stops being UTF-8: the length of the longest valid beginning, and how many
bytes could not continue it, or `none` if the bytes merely end inside a character. -/
structure Utf8Fault where
  validBytes : Nat
  badBytes : Option Nat
deriving DecidableEq, Repr

def Utf8Fault.message (fault : Utf8Fault) : String :=
  match fault.badBytes with
  | some n => s!"invalid utf-8 sequence of {n} bytes from index {fault.validBytes}"
  | none => s!"incomplete utf-8 byte sequence from index {fault.validBytes}"

/-- The ranges that the bytes after the first one must lie in, by the first byte; `none` if no
character begins with it. -/
def tailRanges (first : UInt8) : Option (List (UInt8 × UInt8)) :=
  if first < 0x80 then some []
  else if first < 0xC2 then none
  else if first < 0xE0 then some [(0x80, 0xBF)]
  else if first == 0xE0 then some [(0xA0, 0xBF), (0x80, 0xBF)]
  else if first == 0xED then some [(0x80, 0x9F), (0x80, 0xBF)]
  else if first < 0xF0 then some [(0x80, 0xBF), (0x80, 0xBF)]
  else if first == 0xF0 then some [(0x90, 0xBF), (0x80, 0xBF), (0x80, 0xBF)]
  else if first < 0xF4 then some [(0x80, 0xBF), (0x80, 0xBF), (0x80, 0xBF)]
  else if first == 0xF4 then some [(0x80, 0x8F), (0x80, 0xBF), (0x80, 0xBF)]
  else none

/-- How many of the ranges the next bytes meet, one by one, up to the first that is missed. -/
def tailLength : List (UInt8 × UInt8) → List UInt8 → Nat
  | (lo, hi) :: ranges, b :: bytes =>
    if lo ≤ b && b ≤ hi then tailLength ranges bytes + 1 else 0
  | _, _ => 0

/-- The first fault of a byte sequence that continues `offset` valid bytes. -/
def utf8Fault? (offset : Nat) (bytes : List UInt8) : Option Utf8Fault :=
  match bytes with
  | [] => none
  | first :: rest =>
    match tailRanges first with
    | none => some ⟨offset, some 1⟩
    | some ranges =>
      let met := tailLength ranges rest
      if met = ranges.length then utf8Fault? (offset + 1 + met) (rest.drop met)
      else if met = rest.length then some ⟨offset, none⟩
      else some ⟨offset, some (met + 1)⟩
termination_by bytes.length
decreasing_by
  simp only [List.length_drop, List.length_cons]
  omega

def decodeUtf8 (bytes : List UInt8) : Except Utf8Fault String :=
  match String.fromUTF8? bytes.toByteArray with
  | some text => .ok text
  | none => .error ((utf8Fault? 0 bytes).getD ⟨0, none⟩)

/-- The bytes of a string are those of its characters. -/
theorem toByteArray_utf8 (text : String) : (utf8 text.toList).toByteArray = text.toByteArray := by
  rw [← String.utf8Encode_toList, List.utf8Encode, utf8]

/-- Decoding succeeds just on the bytes of a text, and gives the text. -/
theorem decodeUtf8_eq_ok_iff {bytes : List UInt8} {text : String} :
    decodeUtf8 bytes = .ok text ↔ utf8 text.toList = bytes := by
  rw [decodeUtf8, String.fromUTF8?, ← List.toByteArray_inj, toByteArray_utf8]
  by_cases h : bytes.toByteArray.IsValidUTF8
  · simp [h, String.fromUTF8, ← String.toByteArray_inj, eq_comm]
  · have hne : text.toByteArray ≠ bytes.toByteArray := by
      intro he
      rw [← he] at h
      exact h text.isValidUTF8
    simp [h, hne]

end DocRules.Text
