import DocRules.Proofs.Visit

/-! # Runs of a dispatcher

How the two halves of a dispatcher's work look from outside: which actions it selects for an
element, and what becomes of its state. -/

namespace DocRules

variable {ι α : Type}

namespace Call

def ofTag : Call ι α → Bool
  | .start .. | .stop .. => true
  | .applies .. | .finish .. => false

def started? : Call ι α → Option ι
  | .start a .. => some a
  | .applies .. | .stop .. | .finish .. => none

def stopped? : Call ι α → Option ι
  | .stop a .. => some a
  | .applies .. | .start .. | .finish .. => none

end Call

namespace Dispatcher

variable (behaviour : ι → Behaviour α)

/-! ## Selection -/

theorem fst_firstApplicable (path : Path) (attributes : Attributes) (w : Workspace α) :
    ∀ fallbacks : List ι, (firstApplicable behaviour path attributes w fallbacks).1 =
      fallbacks.find? fun a => (behaviour a).applies path attributes w
  | [] => rfl
  | a :: others => by
    rw [firstApplicable, List.find?_cons]
    cases (behaviour a).applies path attributes w with
    | true => rfl
    | false => exact fst_firstApplicable path attributes w others

theorem eq_applies_of_mem_firstApplicable (path : Path) (attributes : Attributes)
    (w : Workspace α) : ∀ (fallbacks : List ι),
      ∀ c ∈ (firstApplicable behaviour path attributes w fallbacks).2,
        ∃ a, c = .applies a path attributes w
  | [] => by simp [firstApplicable]
  | a :: others => by
    intro c hc
    rw [firstApplicable] at hc
    cases ha : (behaviour a).applies path attributes w with
    | true =>
      rw [ha] at hc
      exact ⟨a, List.mem_singleton.1 hc⟩
    | false =>
      rw [ha] at hc
      rcases List.mem_cons.1 hc with rfl | hc
      · exact ⟨a, rfl⟩
      · exact eq_applies_of_mem_firstApplicable path attributes w others c hc

theorem fst_select (d : Dispatcher ι α) (path : Path) (attributes : Attributes) :
    (d.select behaviour path attributes).1 =
      resolve behaviour d.rules d.fallbacks path attributes d.workspace := by
  rw [select, resolve]
  cases d.rules.actionsAt? path with
  | some actions => rfl
  | none => rw [Option.none_or, ← fst_firstApplicable]

theorem select_of_resolve {d : Dispatcher ι α} {path : Path} {attributes : Attributes}
    {actions? : Option (List ι)}
    (h : resolve behaviour d.rules d.fallbacks path attributes d.workspace = actions?) :
    d.select behaviour path attributes = (actions?, (d.select behaviour path attributes).2) :=
  Prod.ext ((fst_select behaviour d path attributes).trans h) rfl

/-- Selecting actions calls none of them for a tag: fallbacks are only asked. -/
theorem eq_applies_of_mem_select (d : Dispatcher ι α) (path : Path) (attributes : Attributes) :
    ∀ c ∈ (d.select behaviour path attributes).2,
      ∃ a, c = .applies a path attributes d.workspace := by
  rw [select]
  cases d.rules.actionsAt? path with
  | some actions => simp
  | none =>
    exact eq_applies_of_mem_firstApplicable behaviour path attributes d.workspace d.fallbacks

/-! ## Calling the actions of an element -/

/-- The element at whose end to resume after the actions of the element at a path. -/
def skipAfter (path : Path) : Flow → Option Path
  | .proceed => none
  | .skipChildren => some path
  | .skipSiblings => some path.parent

/-- The element at whose end to resume when what follows inside the one at a path is suppressed. -/
def skipIn (path : Path) : Mode → Option Path
  | .active => none
  | .suppressed => some path

theorem runStarts_eq (path : Path) (tag : String) (attributes : Attributes) (w : Workspace α)
    (actions : List ι) :
    runStarts behaviour path tag attributes w actions =
      ⟨(openWith behaviour tag attributes w actions).workspace,
        skipAfter path (openWith behaviour tag attributes w actions).flow,
        (openWith behaviour tag attributes w actions).calls⟩ := by
  induction actions generalizing w with
  | nil => rfl
  | cons a actions ih =>
    rw [runStarts, openWith]
    rcases (behaviour a).start w tag attributes with ⟨w', fault | flow⟩
    · rfl
    · cases flow with
      | proceed => simp only [ih]
      | skipChildren => rfl
      | skipSiblings => rfl

theorem runStops_eq (path : Path) (tag : String) (w : Workspace α) (actions : List ι) :
    runStops behaviour path tag w actions =
      ⟨(closeWith behaviour tag w actions).workspace,
        skipIn path.parent (closeWith behaviour tag w actions).mode,
        (closeWith behaviour tag w actions).calls⟩ := by
  induction actions generalizing w with
  | nil => rfl
  | cons a actions ih =>
    rw [runStops, closeWith]
    rcases (behaviour a).stop w tag with ⟨w', fault | flow⟩
    · rfl
    · cases flow with
      | proceed => simp only [ih]
      | skipChildren => simp only [ih]
      | skipSiblings => rfl

theorem eq_start_of_mem_openWith (tag : String) (attributes : Attributes) (w : Workspace α)
    (actions : List ι) : ∀ c ∈ (openWith behaviour tag attributes w actions).calls,
      ∃ a u, c = .start a tag attributes u := by
  induction actions generalizing w with
  | nil => simp [openWith]
  | cons a actions ih =>
    rw [openWith]
    rcases (behaviour a).start w tag attributes with ⟨w', fault | flow⟩
    · simp
    · cases flow with
      | proceed => simpa using ih w'
      | skipChildren => simp
      | skipSiblings => simp

theorem eq_stop_of_mem_closeWith (tag : String) (w : Workspace α) (actions : List ι) :
    ∀ c ∈ (closeWith behaviour tag w actions).calls, ∃ a u, c = .stop a tag u := by
  induction actions generalizing w with
  | nil => simp [closeWith]
  | cons a actions ih =>
    rw [closeWith]
    rcases (behaviour a).stop w tag with ⟨w', fault | flow⟩
    · simp
    · cases flow with
      | proceed => simpa using ih w'
      | skipChildren => simpa using ih w'
      | skipSiblings => simp

theorem eq_finish_of_mem_runFinishes (w : Workspace α) (actions : List ι) :
    ∀ c ∈ (runFinishes behaviour w actions).2, ∃ a u, c = .finish a u := by
  induction actions generalizing w with
  | nil => simp [runFinishes]
  | cons a actions ih => simpa [runFinishes] using ih _

/-! ## Elements -/

def moveTo (d : Dispatcher ι α) (p : Position) : Dispatcher ι α :=
  { d with workspace := d.workspace.moveTo p }

def enter (d : Dispatcher ι α) (tag : String) (actions? : Option (List ι)) (w : Workspace α)
    (skip : Option Path) : Dispatcher ι α :=
  { d with path := d.path.push tag, selected := actions? :: d.selected, workspace := w, skip }

def leave (d : Dispatcher ι α) (w : Workspace α) (skip : Option Path) : Dispatcher ι α :=
  { d with path := d.path.parent, selected := d.selected.tail, workspace := w, skip }

section Start

variable {d : Dispatcher ι α} {tag : String} {attributes : Attributes}

theorem startElement_unmatched
    (h : resolve behaviour d.rules d.fallbacks (d.path.push tag) attributes d.workspace = none) :
    d.startElement behaviour tag attributes =
      (d.enter tag none (d.workspace.record (unmatchedItem d.workspace (d.path.push tag) tag))
        d.skip, (d.select behaviour (d.path.push tag) attributes).2) := by
  rw [startElement, select_of_resolve behaviour h]
  rfl

theorem startElement_skipping {actions : List ι} {skip : Path}
    (h : resolve behaviour d.rules d.fallbacks (d.path.push tag) attributes d.workspace =
      some actions) (hd : d.skip = some skip) :
    d.startElement behaviour tag attributes =
      (d.enter tag (some actions) d.workspace (some skip),
        (d.select behaviour (d.path.push tag) attributes).2) := by
  rw [startElement, select_of_resolve behaviour h]
  simp only [hd, enter]

theorem startElement_active {actions : List ι}
    (h : resolve behaviour d.rules d.fallbacks (d.path.push tag) attributes d.workspace =
      some actions) (hd : d.skip = none) :
    d.startElement behaviour tag attributes =
      (d.enter tag (some actions) (openWith behaviour tag attributes d.workspace actions).workspace
          (skipAfter (d.path.push tag)
            (openWith behaviour tag attributes d.workspace actions).flow),
        (d.select behaviour (d.path.push tag) attributes).2 ++
          (openWith behaviour tag attributes d.workspace actions).calls) := by
  rw [startElement, select_of_resolve behaviour h]
  simp only [hd, enter, runStarts_eq]

variable (d tag attributes) in
/-- All that the start of an element can come to. -/
theorem startElement_cases :
    let actions? := resolve behaviour d.rules d.fallbacks (d.path.push tag) attributes d.workspace
    let questions := (d.select behaviour (d.path.push tag) attributes).2
    (actions? = none ∧ d.startElement behaviour tag attributes =
      (d.enter tag none (d.workspace.record (unmatchedItem d.workspace (d.path.push tag) tag))
        d.skip, questions)) ∨
    (∃ actions skip, actions? = some actions ∧ d.skip = some skip ∧
      d.startElement behaviour tag attributes =
        (d.enter tag (some actions) d.workspace (some skip), questions)) ∨
    (∃ actions, actions? = some actions ∧ d.skip = none ∧
      d.startElement behaviour tag attributes =
        (d.enter tag (some actions) (openWith behaviour tag attributes d.workspace actions).workspace
            (skipAfter (d.path.push tag)
              (openWith behaviour tag attributes d.workspace actions).flow),
          questions ++ (openWith behaviour tag attributes d.workspace actions).calls)) := by
  intro actions? questions
  cases hr : actions? with
  | none => exact .inl ⟨rfl, startElement_unmatched behaviour hr⟩
  | some actions =>
    cases hd : d.skip with
    | some skip =>
      exact .inr (.inl ⟨actions, skip, rfl, rfl, startElement_skipping behaviour hr hd⟩)
    | none => exact .inr (.inr ⟨actions, rfl, rfl, startElement_active behaviour hr hd⟩)

end Start

section Stop

variable {d : Dispatcher ι α} (tag : String) {outer : List (Option (List ι))}

theorem stopElement_unopened (h : d.selected = []) :
    d.stopElement behaviour tag =
      ({ d with workspace := d.workspace.warn s!"end of element <{tag}> without a matching start" },
        []) := by
  rw [stopElement, h]

theorem stopElement_skipping {actions? : Option (List ι)} {skip : Path}
    (h : d.selected = actions? :: outer) (hd : d.skip = some skip) (hn : skip ≠ d.path) :
    d.stopElement behaviour tag = (d.leave d.workspace (some skip), []) := by
  rw [stopElement, h]
  simp only [hd, leave, h, List.tail_cons, if_neg hn]

theorem stopElement_resuming {actions? : Option (List ι)} (h : d.selected = actions? :: outer)
    (hd : d.skip = some d.path) :
    d.stopElement behaviour tag = (d.leave d.workspace none, []) := by
  rw [stopElement, h]
  simp only [hd, leave, h, List.tail_cons, if_true]

theorem stopElement_unmatched (h : d.selected = none :: outer) (hd : d.skip = none) :
    d.stopElement behaviour tag = (d.leave d.workspace none, []) := by
  rw [stopElement, h]
  simp only [hd, leave, h, List.tail_cons]

theorem stopElement_active {actions : List ι} (h : d.selected = some actions :: outer)
    (hd : d.skip = none) :
    d.stopElement behaviour tag =
      (d.leave (closeWith behaviour tag d.workspace actions).workspace
          (skipIn d.path.parent (closeWith behaviour tag d.workspace actions).mode),
        (closeWith behaviour tag d.workspace actions).calls) := by
  rw [stopElement, h]
  simp only [hd, leave, h, List.tail_cons, runStops_eq]

variable (d) in
/-- All that the end of an element can come to. -/
theorem stopElement_cases :
    (d.selected = [] ∧ d.stopElement behaviour tag =
      ({ d with workspace := d.workspace.warn s!"end of element <{tag}> without a matching start" },
        [])) ∨
    (d.selected ≠ [] ∧ ∃ skip, d.skip = some skip ∧ d.stopElement behaviour tag =
      (d.leave d.workspace (if skip = d.path then none else some skip), [])) ∨
    (d.selected ≠ [] ∧ d.skip = none ∧
      d.stopElement behaviour tag = (d.leave d.workspace none, [])) ∨
    (∃ actions outer, d.selected = some actions :: outer ∧ d.skip = none ∧
      d.stopElement behaviour tag =
        (d.leave (closeWith behaviour tag d.workspace actions).workspace
            (skipIn d.path.parent (closeWith behaviour tag d.workspace actions).mode),
          (closeWith behaviour tag d.workspace actions).calls)) := by
  by_cases hs : d.selected = []
  · exact .inl ⟨hs, stopElement_unopened behaviour tag hs⟩
  · obtain ⟨actions?, outer, hc⟩ := List.exists_cons_of_ne_nil hs
    cases hd : d.skip with
    | some skip =>
      refine .inr (.inl ⟨hs, skip, rfl, ?_⟩)
      by_cases hn : skip = d.path
      · rw [stopElement_resuming behaviour tag hc (hn ▸ hd), if_pos hn]
      · rw [stopElement_skipping behaviour tag hc hd hn, if_neg hn]
    | none =>
      cases actions? with
      | none => exact .inr (.inr (.inl ⟨hs, rfl, stopElement_unmatched behaviour tag hc hd⟩))
      | some actions =>
        exact .inr (.inr (.inr ⟨actions, outer, hc, rfl, stopElement_active behaviour tag hc hd⟩))

end Stop

/-! ## Events in sequence -/

variable [DecidableEq ι]

theorem handle_moveTo (d : Dispatcher ι α) (p : Position) :
    d.handle behaviour (.moveTo p) = (d.moveTo p, []) := rfl

theorem handle_startElement (d : Dispatcher ι α) (name : ElementName) (attributes : Attributes) :
    d.handle behaviour (.startElement name attributes) =
      d.startElement behaviour name.tag attributes := rfl

theorem handle_endElement (d : Dispatcher ι α) (name : ElementName) :
    d.handle behaviour (.endElement name) = d.stopElement behaviour name.tag := rfl

@[simp]
theorem handleAll_nil (d : Dispatcher ι α) : d.handleAll behaviour [] = (d, []) := rfl

theorem handleAll_cons (d : Dispatcher ι α) (e : Event) (events : List Event) :
    d.handleAll behaviour (e :: events) =
      (((d.handle behaviour e).1.handleAll behaviour events).1,
        (d.handle behaviour e).2 ++ ((d.handle behaviour e).1.handleAll behaviour events).2) := rfl

theorem handleAll_append (d : Dispatcher ι α) (first second : List Event) :
    d.handleAll behaviour (first ++ second) =
      (((d.handleAll behaviour first).1.handleAll behaviour second).1,
        (d.handleAll behaviour first).2 ++
          ((d.handleAll behaviour first).1.handleAll behaviour second).2) := by
  induction first generalizing d with
  | nil => rfl
  | cons e first ih => rw [List.cons_append, handleAll_cons, ih, handleAll_cons, List.append_assoc]

end Dispatcher

end DocRules
