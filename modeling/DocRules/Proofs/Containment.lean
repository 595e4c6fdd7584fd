import DocRules.Proofs.History

/-! # Failures contained as skips

A failing action could as well log its failure itself and ask to skip: its children if it fails at
the start of an element, its siblings if it fails at the end. A dispatcher cannot tell the
difference, so a failure never gets further than into the log, where it is the last word of the
input that it happened in. -/

namespace DocRules

variable {ι α : Type}

/-- The action that logs its failures and asks to skip, where the given one fails. -/
def Behaviour.contained (b : Behaviour α) : Behaviour α where
  start w tag attributes :=
    match b.start w tag attributes with
    | (w, .ok flow) => (w, .ok flow)
    | (w, .error fault) => (w.record (faultItem w tag fault), .ok .skipChildren)
  stop w tag :=
    match b.stop w tag with
    | (w, .ok flow) => (w, .ok flow)
    | (w, .error fault) => (w.record (faultItem w tag fault), .ok .skipSiblings)
  finish := b.finish
  applies := b.applies

namespace Behaviour

variable {b : Behaviour α} {w w' : Workspace α} {tag : String} {attributes : Attributes}

theorem start_contained_of_ok {flow : Flow} (h : b.start w tag attributes = (w', .ok flow)) :
    b.contained.start w tag attributes = (w', .ok flow) := by
  simp only [contained, h]

theorem start_contained_of_error {fault : Fault}
    (h : b.start w tag attributes = (w', .error fault)) :
    b.contained.start w tag attributes =
      (w'.record (faultItem w' tag fault), .ok .skipChildren) := by
  simp only [contained, h]

theorem stop_contained_of_ok {flow : Flow} (h : b.stop w tag = (w', .ok flow)) :
    b.contained.stop w tag = (w', .ok flow) := by
  simp only [contained, h]

theorem stop_contained_of_error {fault : Fault} (h : b.stop w tag = (w', .error fault)) :
    b.contained.stop w tag = (w'.record (faultItem w' tag fault), .ok .skipSiblings) := by
  simp only [contained, h]

end Behaviour

def contained (behaviour : ι → Behaviour α) (a : ι) : Behaviour α := (behaviour a).contained

/-- How an action failed: the workspace as it left it, the tag of the element, and why. -/
structure Failure (α : Type) where
  workspace : Workspace α
  tag : String
  fault : Fault

def Failure.logged (f : Failure α) : Workspace α :=
  f.workspace.record (faultItem f.workspace f.tag f.fault)

/-- How the action failed when it was called, if it did. -/
def Call.failure? (behaviour : ι → Behaviour α) : Call ι α → Option (Failure α)
  | .start a tag attributes w =>
    match (behaviour a).start w tag attributes with
    | (w', .error fault) => some ⟨w', tag, fault⟩
    | (_, .ok _) => none
  | .stop a tag w =>
    match (behaviour a).stop w tag with
    | (w', .error fault) => some ⟨w', tag, fault⟩
    | (_, .ok _) => none
  | .applies .. | .finish .. => none

section Failure

variable {behaviour : ι → Behaviour α} {a : ι} {w w' : Workspace α} {tag : String}
  {attributes : Attributes} {fault : Fault} {flow : Flow}

theorem failure?_start_of_error (h : (behaviour a).start w tag attributes = (w', .error fault)) :
    (Call.start a tag attributes w).failure? behaviour = some ⟨w', tag, fault⟩ := by
  rw [Call.failure?, h]

theorem failure?_start_of_ok (h : (behaviour a).start w tag attributes = (w', .ok flow)) :
    (Call.start a tag attributes w).failure? behaviour = none := by
  rw [Call.failure?, h]

theorem failure?_stop_of_error (h : (behaviour a).stop w tag = (w', .error fault)) :
    (Call.stop a tag w).failure? behaviour = some ⟨w', tag, fault⟩ := by
  rw [Call.failure?, h]

theorem failure?_stop_of_ok (h : (behaviour a).stop w tag = (w', .ok flow)) :
    (Call.stop a tag w).failure? behaviour = none := by
  rw [Call.failure?, h]

end Failure

theorem failure?_contained (behaviour : ι → Behaviour α) (c : Call ι α) :
    c.failure? (contained behaviour) = none := by
  cases c with
  | applies | finish => rfl
  | start a tag attributes w =>
    rcases hs : (behaviour a).start w tag attributes with ⟨w', fault | flow⟩
    · exact failure?_start_of_ok (Behaviour.start_contained_of_error hs)
    · exact failure?_start_of_ok (Behaviour.start_contained_of_ok hs)
  | stop a tag w =>
    rcases hs : (behaviour a).stop w tag with ⟨w', fault | flow⟩
    · exact failure?_stop_of_ok (Behaviour.stop_contained_of_error hs)
    · exact failure?_stop_of_ok (Behaviour.stop_contained_of_ok hs)

/-- If a call failed it is the last one, and the workspace is as the action left it, with an entry
about the failure. -/
def FailsLast (behaviour : ι → Behaviour α) (calls : List (Call ι α)) (w : Workspace α) : Prop :=
  ∀ before c after f, calls = before ++ c :: after → c.failure? behaviour = some f →
    after = [] ∧ w = f.logged

namespace FailsLast

variable {behaviour : ι → Behaviour α} {c : Call ι α} {calls : List (Call ι α)} {w : Workspace α}

theorem nil : FailsLast behaviour [] w := by
  intro before c after f h
  simp at h

theorem cons (hc : c.failure? behaviour = none) (h : FailsLast behaviour calls w) :
    FailsLast behaviour (c :: calls) w := by
  intro before c' after f he hf
  cases before with
  | nil =>
    obtain ⟨rfl, -⟩ := List.cons.inj he
    rw [hc] at hf
    cases hf
  | cons b before => exact h before c' after f (List.cons.inj he).2 hf

theorem append {first : List (Call ι α)} (hc : ∀ c ∈ first, c.failure? behaviour = none)
    (h : FailsLast behaviour calls w) : FailsLast behaviour (first ++ calls) w := by
  induction first with
  | nil => exact h
  | cons c first ih =>
    exact (ih fun c hm => hc c (List.mem_cons_of_mem _ hm)).cons (hc c List.mem_cons_self)

theorem of_silent (hc : ∀ c ∈ calls, c.failure? behaviour = none) :
    FailsLast behaviour calls w := by
  rw [← List.append_nil calls]
  exact append hc nil

theorem singleton {f : Failure α} (hc : c.failure? behaviour = some f) :
    FailsLast behaviour [c] f.logged := by
  intro before c' after f' he hf
  cases before with
  | nil =>
    obtain ⟨rfl, rfl⟩ := List.cons.inj he
    exact ⟨rfl, congrArg Failure.logged (Option.some.inj (hc.symm.trans hf))⟩
  | cons b before => simp at he

end FailsLast

namespace Dispatcher

variable (behaviour : ι → Behaviour α)

/-! ## Contained actions make the same run -/

theorem runStarts_contained (path : Path) (tag : String) (attributes : Attributes)
    (w : Workspace α) (actions : List ι) :
    runStarts (contained behaviour) path tag attributes w actions =
      runStarts behaviour path tag attributes w actions := by
  induction actions generalizing w with
  | nil => rfl
  | cons a actions ih =>
    rw [runStarts, runStarts, contained]
    rcases hs : (behaviour a).start w tag attributes with ⟨w', fault | flow⟩
    · rw [Behaviour.start_contained_of_error hs]
      rfl
    · rw [Behaviour.start_contained_of_ok hs]
      cases flow with
      | proceed => simp only [ih]
      | skipChildren | skipSiblings => rfl

theorem runStops_contained (path : Path) (tag : String) (w : Workspace α) (actions : List ι) :
    runStops (contained behaviour) path tag w actions =
      runStops behaviour path tag w actions := by
  induction actions generalizing w with
  | nil => rfl
  | cons a actions ih =>
    rw [runStops, runStops, contained]
    rcases hs : (behaviour a).stop w tag with ⟨w', fault | flow⟩
    · rw [Behaviour.stop_contained_of_error hs]
      rfl
    · rw [Behaviour.stop_contained_of_ok hs]
      cases flow with
      | proceed | skipChildren => simp only [ih]
      | skipSiblings => rfl

theorem runFinishes_contained (w : Workspace α) (actions : List ι) :
    runFinishes (contained behaviour) w actions = runFinishes behaviour w actions := by
  induction actions generalizing w with
  | nil => rfl
  | cons a actions ih =>
    rw [runFinishes, runFinishes, ih]
    rfl

theorem firstApplicable_contained (path : Path) (attributes : Attributes) (w : Workspace α)
    (fallbacks : List ι) :
    firstApplicable (contained behaviour) path attributes w fallbacks =
      firstApplicable behaviour path attributes w fallbacks := by
  induction fallbacks with
  | nil => rfl
  | cons a others ih =>
    rw [firstApplicable, firstApplicable, ih]
    rfl

theorem select_contained (d : Dispatcher ι α) (path : Path) (attributes : Attributes) :
    d.select (contained behaviour) path attributes = d.select behaviour path attributes := by
  rw [select, select, firstApplicable_contained]

variable [DecidableEq ι]

theorem handle_contained (d : Dispatcher ι α) (e : Event) :
    d.handle (contained behaviour) e = d.handle behaviour e := by
  cases e with
  | startDocument | moveTo | report => rfl
  | endDocument => rw [handle, handle, endDocument, endDocument, runFinishes_contained]
  | startElement name attributes =>
    simp only [handle, startElement, select_contained, runStarts_contained]
  | endElement name => simp only [handle, stopElement, runStops_contained]

theorem accept_contained (d : Dispatcher ι α) (input : Input ι α) :
    d.accept (contained behaviour) input = d.accept behaviour input := by
  cases input with
  | event e => exact handle_contained behaviour d e
  | setFallbacks | addFallback | edit => rfl

theorem stateAt_contained (d : Dispatcher ι α) (inputs : List (Input ι α)) (n : Nat) :
    d.stateAt (contained behaviour) inputs n = d.stateAt behaviour inputs n := by
  induction n with
  | zero => rfl
  | succ n ih =>
    rw [stateAt, stateAt, ih]
    simp only [accept_contained]

theorem callsAt_contained (d : Dispatcher ι α) (inputs : List (Input ι α)) (n : Nat) :
    d.callsAt (contained behaviour) inputs n = d.callsAt behaviour inputs n := by
  rw [callsAt, callsAt, stateAt_contained]
  simp only [accept_contained]

/-! ## A failure is the last call of its input -/

section Failing

omit [DecidableEq ι]

theorem failsLast_openWith (tag : String) (attributes : Attributes) (w : Workspace α)
    (actions : List ι) : FailsLast behaviour (openWith behaviour tag attributes w actions).calls
      (openWith behaviour tag attributes w actions).workspace := by
  induction actions generalizing w with
  | nil => exact .nil
  | cons a actions ih =>
    rw [openWith]
    rcases hs : (behaviour a).start w tag attributes with ⟨w', fault | flow⟩
    · exact .singleton (failure?_start_of_error hs)
    · have hc := failure?_start_of_ok hs
      cases flow with
      | proceed => exact (ih w').cons hc
      | skipChildren | skipSiblings => exact FailsLast.nil.cons hc

theorem failsLast_closeWith (tag : String) (w : Workspace α) (actions : List ι) :
    FailsLast behaviour (closeWith behaviour tag w actions).calls
      (closeWith behaviour tag w actions).workspace := by
  induction actions generalizing w with
  | nil => exact .nil
  | cons a actions ih =>
    rw [closeWith]
    rcases hs : (behaviour a).stop w tag with ⟨w', fault | flow⟩
    · exact .singleton (failure?_stop_of_error hs)
    · have hc := failure?_stop_of_ok hs
      cases flow with
      | proceed | skipChildren => exact (ih w').cons hc
      | skipSiblings => exact FailsLast.nil.cons hc

theorem failure?_select (d : Dispatcher ι α) (path : Path) (attributes : Attributes) :
    ∀ c ∈ (d.select behaviour path attributes).2, c.failure? behaviour = none := by
  intro c hc
  obtain ⟨a, rfl⟩ := eq_applies_of_mem_select behaviour d path attributes c hc
  rfl

theorem failsLast_startElement (d : Dispatcher ι α) (tag : String) (attributes : Attributes) :
    FailsLast behaviour (d.startElement behaviour tag attributes).2
      (d.startElement behaviour tag attributes).1.workspace := by
  have hq := failure?_select behaviour d (d.path.push tag) attributes
  obtain ⟨-, he⟩ | ⟨actions, skip, -, -, he⟩ | ⟨actions, -, -, he⟩ :=
    startElement_cases behaviour d tag attributes
  · rw [he]
    exact .of_silent hq
  · rw [he]
    exact .of_silent hq
  · rw [he]
    exact .append hq (failsLast_openWith behaviour tag attributes d.workspace actions)

theorem failsLast_stopElement (d : Dispatcher ι α) (tag : String) :
    FailsLast behaviour (d.stopElement behaviour tag).2
      (d.stopElement behaviour tag).1.workspace := by
  obtain ⟨-, he⟩ | ⟨-, skip, -, he⟩ | ⟨-, -, he⟩ | ⟨actions, outer, -, -, he⟩ :=
    stopElement_cases behaviour d tag
  · rw [he]
    exact .nil
  · rw [he]
    exact .nil
  · rw [he]
    exact .nil
  · rw [he]
    exact failsLast_closeWith behaviour tag d.workspace actions

end Failing

theorem failsLast_accept (d : Dispatcher ι α) (input : Input ι α) :
    FailsLast behaviour (d.accept behaviour input).2 (d.accept behaviour input).1.workspace := by
  cases input with
  | setFallbacks | addFallback | edit => exact .nil
  | event e =>
    cases e with
    | startDocument | moveTo | report => exact .nil
    | startElement name attributes => exact failsLast_startElement behaviour d name.tag attributes
    | endElement name => exact failsLast_stopElement behaviour d name.tag
    | endDocument =>
      refine .of_silent ?_
      intro c hc
      obtain ⟨a, u, rfl⟩ := eq_finish_of_mem_runFinishes behaviour d.workspace _ c hc
      rfl

theorem failsLast_callsAt (d : Dispatcher ι α) (inputs : List (Input ι α)) (n : Nat) :
    FailsLast behaviour (d.callsAt behaviour inputs n)
      (d.stateAt behaviour inputs (n + 1)).workspace := by
  rw [callsAt, stateAt]
  cases inputs[n]? with
  | none => exact .nil
  | some input => exact failsLast_accept behaviour _ input

/-- Actions that never fail, but log their failures and ask to skip, lead through the same states
and are called on the same workspaces; and a failure leaves just its entry behind what the failing
action did. -/
theorem contained_run (rules : RuleBook ι) (fallbacks : List ι) (w : Workspace α)
    (inputs : List (Input ι α)) (n : Nat) :
    let d := ofRules rules fallbacks w
    (∀ c : Call ι α, c.failure? (contained behaviour) = none) ∧
      d.stateAt (contained behaviour) inputs n = d.stateAt behaviour inputs n ∧
      d.callsAt (contained behaviour) inputs n = d.callsAt behaviour inputs n ∧
      FailsLast behaviour (d.callsAt behaviour inputs n)
        (d.stateAt behaviour inputs (n + 1)).workspace := by
  intro d
  exact ⟨failure?_contained behaviour, stateAt_contained behaviour d inputs n,
    callsAt_contained behaviour d inputs n, failsLast_callsAt behaviour d inputs n⟩

end Dispatcher

end DocRules
