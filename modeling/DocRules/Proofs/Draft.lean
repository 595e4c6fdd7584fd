import DocRules.Event

/-! # Writing a document

A draft is a tree of elements together with the choices that a writer makes: which elements without
content are written as one tag, and what stands between the tags that no reader tells of. Names
have no qualifier and no attribute declares a namespace, so the elements are in none. -/

namespace DocRules.Markup

/-! ## Names -/

/-- The characters of a name behind its first one. -/
def isNameChar (c : Char) : Bool := c.isAlphanum || c == '_' || c == '-' || c == '.'

/-- A name that begins with a letter. -/
structure PlainName where
  first : Char
  others : List Char
  isAlpha_first : first.isAlpha = true
  isNameChar_others : ∀ c ∈ others, isNameChar c = true

namespace PlainName

def letters (name : PlainName) : List Char := name.first :: name.others

def text (name : PlainName) : String := String.ofList name.letters

end PlainName

/-! ## Tags -/

/-- A character of a value as it is written. The four that have a meaning there are replaced. -/
def escapeChar (c : Char) : List Char :=
  match c with
  | '&' => "&amp;".toList
  | '<' => "&lt;".toList
  | '>' => "&gt;".toList
  | '"' => "&quot;".toList
  | c => [c]

def escape (value : String) : List Char := value.toList.flatMap escapeChar

/-- An attribute with a plain name and any value, before anything in it is replaced. -/
structure PlainAttribute where
  name : PlainName
  value : String

namespace PlainAttribute

def toAttribute (a : PlainAttribute) : Attribute := ⟨a.name.text, a.value⟩

/-- The attribute as it is written, with the space before it. -/
def written (a : PlainAttribute) : List Char :=
  ' ' :: (a.name.letters ++ '=' :: '"' :: (escape a.value ++ ['"']))

end PlainAttribute

/-- The name of an element and its attributes: no two of one name, and none that would declare a
namespace. -/
structure PlainTag where
  name : PlainName
  attributes : List PlainAttribute
  nodup_names : (attributes.map (·.name.text)).Nodup
  ne_xmlns : ∀ a ∈ attributes, a.name.text ≠ "xmlns"

namespace PlainTag

def written (tag : PlainTag) : List Char :=
  tag.name.letters ++ tag.attributes.flatMap (·.written)

def start (tag : PlainTag) : Event :=
  .startElement (.plain tag.name.text) ⟨tag.attributes.map (·.toAttribute)⟩

def stop (tag : PlainTag) : Event := .endElement (.plain tag.name.text)

end PlainTag

/-! ## Between the tags -/

/-- A piece that no reader tells of: text without markup and references, or a comment. -/
inductive Filler where
  | text (letters : List Char) (plain : ∀ c ∈ letters, c ≠ '<' ∧ c ≠ '&')
  | comment (body : List Char) (plain : ∀ c ∈ body, c ≠ '-' ∧ c ≠ '>')

def Filler.written : Filler → List Char
  | .text letters _ => letters
  | .comment body _ => "<!--".toList ++ (body ++ "-->".toList)

/-- Everything between two tags. -/
abbrev Gap := List Filler

def Gap.written (gap : Gap) : List Char := gap.flatMap Filler.written

/-! ## Elements -/

mutual
/-- An element to be written, as a single tag or between two tags, where it may have no content
either. -/
inductive Draft where
  | empty (tag : PlainTag)
  | filled (tag : PlainTag) (content : Content)

/-- What is written between the two tags of an element. -/
inductive Content where
  | last (gap : Gap)
  | next (gap : Gap) (element : Draft) (rest : Content)
end

mutual
def Draft.written : Draft → List Char
  | .empty tag => '<' :: (tag.written ++ ['/', '>'])
  | .filled tag content =>
    '<' :: (tag.written ++ '>' :: (content.written ++ '<' :: '/' :: (tag.name.letters ++ ['>'])))

def Content.written : Content → List Char
  | .last gap => gap.written
  | .next gap element rest => gap.written ++ (element.written ++ rest.written)
end

mutual
/-- What a reader tells of an element, positions apart. -/
def Draft.events : Draft → List Event
  | .empty tag => [tag.start, tag.stop]
  | .filled tag content => tag.start :: (content.events ++ [tag.stop])

def Content.events : Content → List Event
  | .last _ => []
  | .next _ element rest => element.events ++ rest.events
end

/-- A document to be written: one element and what stands around it. -/
structure Manuscript where
  before : Gap
  root : Draft
  after : Gap

def Manuscript.written (m : Manuscript) : List Char :=
  m.before.written ++ (m.root.written ++ m.after.written)

example :
    let x : PlainAttribute := ⟨⟨'x', ['-'], rfl, by simp [isNameChar]⟩, "<"⟩
    let a : PlainTag := ⟨⟨'a', [], rfl, by simp⟩, [x], by simp, by simp [x]; decide⟩
    let b : PlainTag := ⟨⟨'b', ['1'], rfl, by simp [isNameChar]⟩, [], by simp, by simp⟩
    let gap : Gap := [.text ['>'] (by simp), .comment [] (by simp)]
    (Manuscript.mk [] (.filled a (.next [] (.empty b) (.last gap))) []).written =
      "<a x-=\"&lt;\"><b1/>><!----></a>".toList := rfl

end DocRules.Markup
