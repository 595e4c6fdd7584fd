import DocRules.Proofs.CompleteStart
import DocRules.Proofs.Replay

/-! # Leaving elements out moves their content up

A recording drops the start and the end of an element one at a time, each by its namespace alone, and
remembers nothing of what it dropped. What is left is a forest again: that of the elements kept, with
the content of a dropped element in its place. So a dispatcher that the recording is replayed to finds
every end matched by a start. -/

namespace DocRules

mutual
/-- The element as it is kept, or its content as that is kept. -/
def Element.splice (s : ReadSettings) : Element → Forest
  | .mk name attributes opened closed content =>
    if s.allows name.space then
      [.mk name.replayed attributes opened closed (Forest.splice s content)]
    else Forest.splice s content

def Forest.splice (s : ReadSettings) : Forest → Forest
  | [] => []
  | e :: forest => e.splice s ++ Forest.splice s forest
end

mutual
theorem report_notMem_elementEvents (level : Level) (d : Diagnostic) :
    ∀ e : Element, Event.report level d ∉ e.events
  | .mk _ _ _ _ content => by
    have hc := report_notMem_forestEvents level d content
    simp [Element.events, hc]

theorem report_notMem_forestEvents (level : Level) (d : Diagnostic) :
    ∀ forest : Forest, Event.report level d ∉ forest.events
  | [] => by simp [Forest.events]
  | e :: forest => by
    have he := report_notMem_elementEvents level d e
    have hf := report_notMem_forestEvents level d forest
    simp [Forest.events, he, hf]
end

namespace Recording

mutual
/-- Every event of an element is told with a position of the element itself, so the position before
it does not matter. -/
theorem retell_elementEvents (s : ReadSettings) :
    ∀ (e : Element) (p : Position) (rest : List Event),
      ∃ q, retell s p (e.events ++ rest) = Forest.events (e.splice s) ++ retell s q rest
  | .mk name attributes opened closed content, p, rest => by
    obtain ⟨q, hc⟩ := retell_forestEvents s content opened
      (.moveTo closed :: .endElement name :: rest)
    refine ⟨closed, ?_⟩
    rw [Element.events, Element.splice, List.cons_append, List.cons_append, List.append_assoc,
      retell, retell]
    split
    · rename_i h
      rw [List.cons_append, List.cons_append, List.nil_append, hc, retell, retell, if_pos h,
        Forest.events, Forest.events, Element.events]
      simp only [List.cons_append, List.append_assoc, List.nil_append, List.append_nil]
    · rename_i h
      rw [List.cons_append, List.cons_append, List.nil_append, hc, retell, retell, if_neg h]

theorem retell_forestEvents (s : ReadSettings) :
    ∀ (forest : Forest) (p : Position) (rest : List Event),
      ∃ q, retell s p (Forest.events forest ++ rest) =
        Forest.events (Forest.splice s forest) ++ retell s q rest
  | [], p, rest => ⟨p, rfl⟩
  | e :: forest, p, rest => by
    obtain ⟨mid, he⟩ := retell_elementEvents s e p (Forest.events forest ++ rest)
    obtain ⟨q, hf⟩ := retell_forestEvents s forest mid rest
    refine ⟨q, ?_⟩
    rw [Forest.events, List.append_assoc, he, hf, Forest.splice, Forest.events_append,
      List.append_assoc]
end

end Recording

namespace Dispatcher

variable {ι α : Type} [DecidableEq ι] (behaviour : ι → Behaviour α)

/-- As many elements are selected for as nested events leave open. -/
theorem length_selected_handle {d : Dispatcher ι α} {e : Event} {opened left : List ElementName}
    (h : d.selected.length = opened.length) (ho : stepOpen opened e = some left) :
    (d.handle behaviour e).1.selected.length = left.length := by
  cases e with
  | startElement name attributes =>
    obtain rfl := Option.some.inj ho
    have hs := (startElement_effect behaviour d name.tag attributes).1
    rw [handle_startElement, hs, List.length_cons, List.length_cons, h]
  | endElement name =>
    have hs := (stopElement_effect behaviour d name.tag).1
    cases opened with
    | nil => cases ho
    | cons innermost outer =>
      rw [stepOpen] at ho
      split at ho
      · obtain rfl := Option.some.inj ho
        rw [handle_endElement, hs, List.length_tail, h, List.length_cons, Nat.add_sub_cancel]
      · contradiction
  | startDocument | endDocument | moveTo | report =>
    obtain rfl := Option.some.inj ho
    exact h

theorem length_selected_handleAll {d : Dispatcher ι α} {events : List Event}
    {opened left : List ElementName} (h : d.selected.length = opened.length)
    (ho : leftOpen opened events = some left) :
    (d.handleAll behaviour events).1.selected.length = left.length := by
  induction events generalizing d opened with
  | nil =>
    obtain rfl := Option.some.inj ho
    exact h
  | cons e events ih =>
    rw [leftOpen_cons] at ho
    obtain ⟨next, hn, ho⟩ := Option.bind_eq_some_iff.1 ho
    exact ih (length_selected_handle behaviour h hn) ho

/-- The event ends an open element, and nothing but what the actions of the element do comes into the
workspace. -/
def EndsOpen (d : Dispatcher ι α) (name : ElementName) : Prop :=
  ∃ actions? outer, d.selected = actions? :: outer ∧
    ((d.handle behaviour (.endElement name)).1.workspace = d.workspace ∨
      ∃ actions, actions? = some actions ∧
        (d.handle behaviour (.endElement name)).1.workspace =
          (closeWith behaviour name.tag d.workspace actions).workspace)

theorem endsOpen_of_selected {d : Dispatcher ι α} (name : ElementName) (h : d.selected ≠ []) :
    d.EndsOpen behaviour name := by
  obtain ⟨actions?, outer, hs⟩ := List.exists_cons_of_ne_nil h
  refine ⟨actions?, outer, hs, ?_⟩
  rw [handle_endElement]
  cases hk : d.skip with
  | some skip =>
    by_cases hn : skip = d.path
    · rw [stopElement_resuming behaviour name.tag hs (hn ▸ hk)]
      exact .inl rfl
    · rw [stopElement_skipping behaviour name.tag hs hk hn]
      exact .inl rfl
  | none =>
    cases actions? with
    | none =>
      rw [stopElement_unmatched behaviour name.tag hs hk]
      exact .inl rfl
    | some actions =>
      rw [stopElement_active behaviour name.tag hs hk]
      exact .inr ⟨actions, rfl, rfl⟩

/-- Where an end is nested among events, an element is open. -/
theorem endsOpen_of_leftOpen {d : Dispatcher ι α} {before after : List Event} {name : ElementName}
    {left : List ElementName} (h : d.selected = [])
    (ho : leftOpen [] (before ++ .endElement name :: after) = some left) :
    (d.handleAll behaviour before).1.EndsOpen behaviour name := by
  rw [leftOpen_append] at ho
  obtain ⟨opened, hb, ho⟩ := Option.bind_eq_some_iff.1 ho
  have hl := length_selected_handleAll behaviour (congrArg List.length h) hb
  refine endsOpen_of_selected behaviour name fun hnil => ?_
  rw [hnil] at hl
  obtain rfl := List.length_eq_zero_iff.1 hl.symm
  cases ho

omit [DecidableEq ι] in
theorem path_eq_empty {d : Dispatcher ι α} (hd : d.WellNested) (h : d.selected = []) :
    d.path = .empty := by
  have hl := hd.length_selected
  rw [h] at hl
  exact congrArg Path.mk (List.length_eq_zero_iff.1 hl.symm)

end Dispatcher

open Dispatcher in
/-- Recording a forest and replaying it gives the events of the forest with the elements of other
namespaces left out and their content in their place. They are nested, so a dispatcher never meets
an end without a start among them, and no element is open when the document ends. -/
theorem replay_forest_spliced (s : ReadSettings) (forest : Forest) :
    let kept := Forest.events (Forest.splice s forest)
    ((Recording.ofSettings s).handleAll forest.events).replay =
        .ok (.startDocument :: (kept ++ [.endDocument])) ∧
      leftOpen [] kept = some [] ∧
      ∀ {ι α : Type} [DecidableEq ι] (behaviour : ι → Behaviour α) (rules : RuleBook ι)
        (fallbacks : List ι) (w : Workspace α),
        let fresh := ofRules rules fallbacks w
        (∀ before name after, kept = before ++ .endElement name :: after →
          (fresh.handleAll behaviour (.startDocument :: before)).1.EndsOpen behaviour name) ∧
        (fresh.handleAll behaviour (.startDocument :: kept)).1.path = .empty ∧
        (fresh.handleAll behaviour (.startDocument :: kept)).1.selected = [] := by
  intro kept
  have hnested : leftOpen [] kept = some [] := leftOpen_forestEvents [] _
  refine ⟨?_, hnested, fun {ι α} _ behaviour rules fallbacks w => ?_⟩
  · obtain ⟨q, hq⟩ := Recording.retell_forestEvents s forest .start []
    rw [List.append_nil, Recording.retell, List.append_nil] at hq
    rw [Recording.replay_handleAll s fun d => report_notMem_forestEvents .fatal d forest, hq]
  · intro fresh
    have hl : (fresh.handleAll behaviour (.startDocument :: kept)).1.selected.length = 0 :=
      length_selected_handleAll behaviour rfl hnested
    have hs := List.length_eq_zero_iff.1 hl
    refine ⟨fun before name after hk => ?_, ?_, hs⟩
    · rw [hk] at hnested
      have hb : leftOpen [] ((.startDocument :: before) ++ .endElement name :: after) = some [] :=
        hnested
      exact endsOpen_of_leftOpen behaviour rfl hb
    · exact path_eq_empty ((wellNested_ofRules rules fallbacks w).handleAll behaviour _) hs

end DocRules
