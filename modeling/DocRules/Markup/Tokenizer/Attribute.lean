import DocRules.Markup.Tokenizer.Lexeme

/-! # Attributes as written

The part of a tag after its name is a sequence of assignments. A malformed one does not stop the
reading: it gives a fault, and reading resumes at the next blank. Offsets count the bytes of the tag
after its opening bracket. -/

namespace DocRules.Markup

/-- An assignment in a tag. The value is the text between the quotation marks, as it stands. -/
structure Assignment where
  name : String
  value : List Char
deriving DecidableEq, Repr

/-- Why an assignment is malformed. -/
inductive AttributeFault where
  | missingEquals (offset : Nat)
  | duplicated (offset first : Nat)
  | missingValue (offset : Nat)
  | unquoted (offset : Nat)
  | unclosed (offset : Nat) (quote : Char)
deriving DecidableEq, Repr

def AttributeFault.message : AttributeFault → String
  | .missingEquals offset =>
    s!"position {offset}: attribute key must be directly followed by `=` or space"
  | .duplicated offset first =>
    s!"position {offset}: duplicated attribute, previous declaration at position {first}"
  | .missingValue offset => s!"position {offset}: `=` must be followed by an attribute value"
  | .unquoted offset =>
    s!"position {offset}: attribute value must be enclosed in `\"` or `'`"
  | .unclosed offset quote =>
    s!"position {offset}: missing closing quote `{quote}` in attribute value"

/-- What reading one assignment comes to: the assignment or what is wrong with it, the names that
count as used from now on, each with its first offset, and where reading resumes. -/
structure AssignmentScan where
  result : Except AttributeFault Assignment
  used : List (String × Nat)
  offset : Nat
  rest : List Char

/-- Reads the value of an assignment from the text after the equals sign, which begins at
`offset`. -/
def scanValue (name : String) (used : List (String × Nat)) (offset : Nat) (text : List Char) :
    AssignmentScan :=
  let blanks := text.takeWhile Text.isBlank
  let start := offset + Text.byteLength blanks
  match text.dropWhile Text.isBlank with
  | [] => ⟨.error (.missingValue start), used, start, []⟩
  | c :: body =>
    if isQuote c then
      match Text.cutAt c body with
      | none =>
        let stop := start + 1 + Text.byteLength body
        ⟨.error (.unclosed stop c), used, stop, []⟩
      | some (value, rest) =>
        ⟨.ok ⟨name, value⟩, used, start + Text.byteLength value + 2, rest⟩
    else
      let word := (c :: body).takeWhile (!Text.isBlank ·)
      ⟨.error (.unquoted start), used, start + Text.byteLength word,
        (c :: body).dropWhile (!Text.isBlank ·)⟩

/-- Reads the assignment whose name begins with `c` at `offset`. With `unique`, a name that counts
as used is a fault. -/
def scanAssignment (unique : Bool) (used : List (String × Nat)) (offset : Nat) (c : Char)
    (text : List Char) : AssignmentScan :=
  let inName (c : Char) : Bool := c != '=' && !Text.isBlank c
  let key := c :: text.takeWhile inName
  let name := String.ofList key
  let after := text.dropWhile inName
  let stop := offset + Text.byteLength key + Text.byteLength (after.takeWhile Text.isBlank)
  match after.dropWhile Text.isBlank with
  | '=' :: value =>
    match if unique then used.lookup name else none with
    | some first =>
      let word := value.takeWhile (!Text.isBlank ·)
      ⟨.error (.duplicated offset first), used, stop + 1 + Text.byteLength word,
        value.dropWhile (!Text.isBlank ·)⟩
    | none => scanValue name ((name, offset) :: used) (stop + 1) value
  | rest => ⟨.error (.missingEquals stop), used, stop, rest⟩

theorem length_rest_scanValue (name : String) (used : List (String × Nat)) (offset : Nat)
    (text : List Char) : (scanValue name used offset text).rest.length ≤ text.length := by
  have hd := Text.length_dropWhile_le Text.isBlank text
  unfold scanValue
  simp only
  split
  · simp
  · rename_i c body hb
    rw [hb, List.length_cons] at hd
    split
    · split
      · simp
      · rename_i value rest hc
        have := Text.length_lt_of_cutAt hc
        simp only
        omega
    · have := Text.length_dropWhile_le (!Text.isBlank ·) (c :: body)
      simp only [List.length_cons] at this ⊢
      omega

theorem length_rest_scanAssignment (unique : Bool) (used : List (String × Nat)) (offset : Nat)
    (c : Char) (text : List Char) :
    (scanAssignment unique used offset c text).rest.length ≤ text.length := by
  have hn := Text.length_dropWhile_le (fun c => c != '=' && !Text.isBlank c) text
  have hb := Text.length_dropWhile_le Text.isBlank
    (text.dropWhile fun c => c != '=' && !Text.isBlank c)
  unfold scanAssignment
  simp only
  split
  · rename_i value he
    rw [he, List.length_cons] at hb
    split
    · have := Text.length_dropWhile_le (!Text.isBlank ·) value
      simp only
      omega
    · refine Nat.le_trans (length_rest_scanValue _ _ _ value) ?_
      omega
  · simp only
    omega

/-- The assignments of a text that begins at `offset`, each well-formed or not. -/
def assignmentsFrom (unique : Bool) (used : List (String × Nat)) (offset : Nat)
    (text : List Char) : List (Except AttributeFault Assignment) :=
  match h : text.dropWhile Text.isBlank with
  | [] => []
  | c :: body =>
    let start := offset + Text.byteLength (text.takeWhile Text.isBlank)
    let s := scanAssignment unique used start c body
    have := Text.length_lt_of_dropWhile h
    s.result :: assignmentsFrom unique s.used s.offset s.rest
termination_by text.length
decreasing_by
  refine Nat.lt_of_le_of_lt (length_rest_scanAssignment _ _ _ _ _) ?_
  assumption

end DocRules.Markup
