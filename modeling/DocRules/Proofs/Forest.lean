import DocRules.Event

/-! # Elements as trees

A reader tells of an element by its two tags, with everything inside it in between. Here an element
is one value that holds its content. Events that need not come from a tree are nested all the same
if every end is that of the innermost open element. -/

namespace DocRules

/-- An element, the positions of its two tags, and the elements inside it. -/
inductive Element where
  | mk (name : ElementName) (attributes : Attributes) (opened closed : Position)
    (content : List Element)

/-- Elements next to each other. -/
abbrev Forest := List Element

mutual
def Element.events : Element → List Event
  | .mk name attributes opened closed content =>
    .moveTo opened :: .startElement name attributes ::
      (Forest.events content ++ [.moveTo closed, .endElement name])

def Forest.events : Forest → List Event
  | [] => []
  | e :: forest => e.events ++ Forest.events forest
end

theorem Forest.events_append (first second : Forest) :
    Forest.events (first ++ second) = Forest.events first ++ Forest.events second := by
  induction first with
  | nil => rfl
  | cons e first ih => rw [List.cons_append, Forest.events, Forest.events, ih, List.append_assoc]

/-! ## Open elements -/

/-- The names of the open elements, innermost first, after one more event. An element can only end
as the innermost one, and under the name that it began with. -/
def stepOpen (opened : List ElementName) : Event → Option (List ElementName)
  | .startElement name _ => some (name :: opened)
  | .endElement name =>
    match opened with
    | [] => none
    | innermost :: outer => if name = innermost then some outer else none
  | .startDocument | .endDocument | .moveTo _ | .report .. => some opened

/-- The names of the elements that are open after some events, if the events are nested. -/
def leftOpen (opened : List ElementName) (events : List Event) : Option (List ElementName) :=
  events.foldlM stepOpen opened

theorem leftOpen_cons (opened : List ElementName) (e : Event) (events : List Event) :
    leftOpen opened (e :: events) = (stepOpen opened e).bind (leftOpen · events) :=
  List.foldlM_cons

theorem leftOpen_append (opened : List ElementName) (first second : List Event) :
    leftOpen opened (first ++ second) = (leftOpen opened first).bind (leftOpen · second) :=
  List.foldlM_append

theorem stepOpen_endElement_self (name : ElementName) (outer : List ElementName) :
    stepOpen (name :: outer) (.endElement name) = some outer := if_pos rfl

mutual
theorem leftOpen_elementEvents (opened : List ElementName) :
    ∀ e : Element, leftOpen opened e.events = some opened
  | .mk name attributes p q content => by
    have hc := leftOpen_forestEvents (name :: opened) content
    rw [Element.events, leftOpen_cons, stepOpen, Option.bind_some, leftOpen_cons, stepOpen,
      Option.bind_some, leftOpen_append, hc, Option.bind_some, leftOpen_cons, stepOpen,
      Option.bind_some, leftOpen_cons, stepOpen_endElement_self]
    rfl

/-- The events of a forest close what they open. -/
theorem leftOpen_forestEvents (opened : List ElementName) :
    ∀ forest : Forest, leftOpen opened forest.events = some opened
  | [] => rfl
  | e :: forest => by
    rw [Forest.events, leftOpen_append, leftOpen_elementEvents opened e, Option.bind_some,
      leftOpen_forestEvents opened forest]
end

end DocRules
