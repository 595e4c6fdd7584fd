import DocRules.Proofs.History
import DocRules.Proofs.Registration

/-! # No end without a complete start

Actions set up at the start of an element what they take down at its end. So an action may be called
for an end only if every action of the element was called for the start, and proceeded. What makes
it hold is that a path is remembered as long as some open element was not started fully: all the
elements around the remembered one were. -/

namespace DocRules.Dispatcher

variable {ι α : Type} (behaviour : ι → Behaviour α)

/-! ## The calls of one input -/

theorem startedFully_openWith {tag : String} {attributes : Attributes} {w : Workspace α}
    {actions : List ι} (h : (openWith behaviour tag attributes w actions).flow = .proceed) :
    StartedFully behaviour actions (openWith behaviour tag attributes w actions).calls := by
  induction actions generalizing w with
  | nil => exact ⟨rfl, fun _ _ _ _ hm => nomatch hm⟩
  | cons a actions ih =>
    rw [openWith] at h ⊢
    rcases hs : (behaviour a).start w tag attributes with ⟨w', fault | flow⟩
    · rw [hs] at h
      cases h
    · cases flow with
      | proceed =>
        rw [hs] at h
        obtain ⟨hst, hp⟩ := ih h
        refine ⟨congrArg (a :: ·) hst, fun b t as u hm => ?_⟩
        rcases List.mem_cons.1 hm with he | hm
        · cases he
          rw [hs]
        · exact hp b t as u hm
      | skipChildren => rw [hs] at h; cases h
      | skipSiblings => rw [hs] at h; cases h

theorem stopped_closeWith_prefix (tag : String) (w : Workspace α) (actions : List ι) :
    (closeWith behaviour tag w actions).calls.filterMap Call.stopped? <+: actions := by
  induction actions generalizing w with
  | nil => exact List.prefix_rfl
  | cons a actions ih =>
    rw [closeWith]
    rcases (behaviour a).stop w tag with ⟨w', fault | flow⟩
    · exact List.prefix_append [a] actions
    · cases flow with
      | proceed => exact List.cons_prefix_cons.2 ⟨rfl, ih w'⟩
      | skipChildren => exact List.cons_prefix_cons.2 ⟨rfl, ih w'⟩
      | skipSiblings => exact List.prefix_append [a] actions

theorem stopped?_of_mem_startElement (d : Dispatcher ι α) (tag : String) (attributes : Attributes) :
    ∀ c ∈ (d.startElement behaviour tag attributes).2, c.stopped? = none := by
  intro c hc
  have hq := eq_applies_of_mem_select behaviour d (d.path.push tag) attributes c
  cases hr : resolve behaviour d.rules d.fallbacks (d.path.push tag) attributes d.workspace with
  | none =>
    rw [startElement_unmatched behaviour hr] at hc
    obtain ⟨a, rfl⟩ := hq hc
    rfl
  | some actions =>
    cases hs : d.skip with
    | some skip =>
      rw [startElement_skipping behaviour hr hs] at hc
      obtain ⟨a, rfl⟩ := hq hc
      rfl
    | none =>
      rw [startElement_active behaviour hr hs] at hc
      rcases List.mem_append.1 hc with hc | hc
      · obtain ⟨a, rfl⟩ := hq hc
        rfl
      · obtain ⟨a, u, rfl⟩ := eq_start_of_mem_openWith behaviour tag attributes _ actions c hc
        rfl

theorem calls_stopElement_skipping {d : Dispatcher ι α} (tag : String) {skip : Path}
    (hk : d.skip = some skip) : (d.stopElement behaviour tag).2 = [] := by
  cases hs : d.selected with
  | nil => rw [stopElement_unopened behaviour tag hs]
  | cons actions? outer =>
    by_cases hn : skip = d.path
    · rw [stopElement_resuming behaviour tag hs (hn ▸ hk)]
    · rw [stopElement_skipping behaviour tag hs hk hn]

/-- The end of an element makes calls only if the element has actions and nothing is skipped. -/
theorem selected_of_mem_stopElement {d : Dispatcher ι α} {tag : String} {c : Call ι α}
    (hc : c ∈ (d.stopElement behaviour tag).2) :
    ∃ actions outer, d.selected = some actions :: outer ∧ d.skip = none := by
  cases hk : d.skip with
  | some skip =>
    rw [calls_stopElement_skipping behaviour tag hk] at hc
    cases hc
  | none =>
    rcases hs : d.selected with _ | ⟨_ | actions, outer⟩
    · rw [stopElement_unopened behaviour tag hs] at hc
      cases hc
    · rw [stopElement_unmatched behaviour tag hs hk] at hc
      cases hc
    · exact ⟨actions, outer, rfl, rfl⟩

/-- An action is called for an end only where an element with actions ends. -/
theorem stopped_accept [DecidableEq ι] {d : Dispatcher ι α} {input : Input ι α}
    (h : (d.accept behaviour input).2.filterMap Call.stopped? ≠ []) :
    ∃ name actions outer, input = .event (.endElement name) ∧ d.selected = some actions :: outer ∧
      d.skip = none ∧
      (d.accept behaviour input).2 = (closeWith behaviour name.tag d.workspace actions).calls := by
  obtain ⟨a, ha⟩ := List.exists_mem_of_ne_nil _ h
  obtain ⟨c, hc, hca⟩ := List.mem_filterMap.1 ha
  cases input with
  | setFallbacks fallbacks => cases hc
  | addFallback action => cases hc
  | edit change => cases hc
  | event e =>
    cases e with
    | startDocument => cases hc
    | moveTo p => cases hc
    | report level diagnostic => cases hc
    | endDocument =>
      obtain ⟨b, u, rfl⟩ := eq_finish_of_mem_runFinishes behaviour d.workspace _ c hc
      cases hca
    | startElement name attributes =>
      rw [stopped?_of_mem_startElement behaviour d name.tag attributes c hc] at hca
      cases hca
    | endElement name =>
      obtain ⟨actions, outer, hs, hk⟩ := selected_of_mem_stopElement behaviour hc
      exact ⟨name, actions, outer, rfl, hs, hk,
        congrArg Prod.snd (stopElement_active behaviour name.tag hs hk)⟩

/-! ## What one element event changes -/

theorem StartedFully.after_questions {actions : List ι} {questions calls : List (Call ι α)}
    (hq : ∀ c ∈ questions, ∃ a path attributes w, c = .applies a path attributes w)
    (h : StartedFully behaviour actions calls) :
    StartedFully behaviour actions (questions ++ calls) := by
  refine ⟨?_, fun a tag attributes w hm => ?_⟩
  · rw [List.filterMap_append, h.started, List.filterMap_eq_nil_iff.2, List.nil_append]
    intro c hc
    obtain ⟨a, path, attributes, w, rfl⟩ := hq c hc
    rfl
  · rcases List.mem_append.1 hm with hm | hm
    · obtain ⟨b, path, as, u, he⟩ := hq _ hm
      cases he
    · exact h.proceeded a tag attributes w hm

/-- The start of an element selects its actions and forgets nothing; it remembers something unless
all the actions were called and proceeded. -/
theorem startElement_effect (d : Dispatcher ι α) (tag : String) (attributes : Attributes) :
    let actions? := resolve behaviour d.rules d.fallbacks (d.path.push tag) attributes d.workspace
    (d.startElement behaviour tag attributes).1.selected = actions? :: d.selected ∧
      (∀ s, d.skip = some s → (d.startElement behaviour tag attributes).1.skip = some s) ∧
      ((d.startElement behaviour tag attributes).1.skip = none →
        ∀ actions, actions? = some actions →
          StartedFully behaviour actions (d.startElement behaviour tag attributes).2) := by
  intro actions?
  cases hr : actions? with
  | none =>
    rw [startElement_unmatched behaviour hr]
    exact ⟨rfl, fun s hs => hs, fun _ actions ha => nomatch ha⟩
  | some actions =>
    cases hs : d.skip with
    | some skip =>
      rw [startElement_skipping behaviour hr hs]
      exact ⟨rfl, fun s h => h, fun h => nomatch h⟩
    | none =>
      rw [startElement_active behaviour hr hs]
      refine ⟨rfl, fun s h => (nomatch h), fun h as ha => ?_⟩
      cases ha
      have hf : (openWith behaviour tag attributes d.workspace actions).flow = .proceed := by
        cases hf : (openWith behaviour tag attributes d.workspace actions).flow with
        | proceed => rfl
        | skipChildren | skipSiblings => rw [hf] at h; cases h
      refine (startedFully_openWith behaviour hf).after_questions behaviour fun c hc => ?_
      obtain ⟨a, rfl⟩ := eq_applies_of_mem_select behaviour d _ attributes c hc
      exact ⟨a, _, _, _, rfl⟩

/-- The end of an element forgets what is remembered only if that is the element. -/
theorem stopElement_effect (d : Dispatcher ι α) (tag : String) :
    (d.stopElement behaviour tag).1.selected = d.selected.tail ∧
      ∀ s, d.skip = some s → (d.stopElement behaviour tag).1.skip = some s ∨ s = d.path := by
  cases hs : d.selected with
  | nil =>
    rw [stopElement_unopened behaviour tag hs]
    exact ⟨hs, fun s h => .inl h⟩
  | cons actions? outer =>
    cases hk : d.skip with
    | some skip =>
      by_cases hn : skip = d.path
      · rw [stopElement_resuming behaviour tag hs (hn ▸ hk)]
        exact ⟨congrArg List.tail hs, fun s h => .inr (Option.some.inj h ▸ hn)⟩
      · rw [stopElement_skipping behaviour tag hs hk hn]
        exact ⟨congrArg List.tail hs, fun s h => .inl h⟩
    | none =>
      cases actions? with
      | none =>
        rw [stopElement_unmatched behaviour tag hs hk]
        exact ⟨congrArg List.tail hs, fun s h => nomatch h⟩
      | some actions =>
        rw [stopElement_active behaviour tag hs hk]
        exact ⟨congrArg List.tail hs, fun s h => nomatch h⟩

/-! ## Every open element outside the remembered one was started fully -/

section Tracked

variable [DecidableEq ι] (d : Dispatcher ι α) (inputs : List (Input ι α))

/-- If actions were selected for the element, its start is complete. -/
def FullyStartedAt (i : Nat) : Prop :=
  ∀ actions, d.selectedAt behaviour inputs i = some actions →
    StartedFully behaviour actions (d.callsAt behaviour inputs i)

/-- What ties the state after the first inputs to the elements that are open then. -/
structure Tracked (n : Nat) : Prop where
  nested : (d.stateAt behaviour inputs n).WellNested
  selected : (d.stateAt behaviour inputs n).selected =
    (openAfter inputs n).map (d.selectedAt behaviour inputs)
  /-- As many elements are around `i` as `outer` lists. -/
  started : ∀ inner i outer, openAfter inputs n = inner ++ i :: outer →
    (∀ s, (d.stateAt behaviour inputs n).skip = some s → outer.length + 1 < s.length) →
    d.FullyStartedAt behaviour inputs i

variable {d inputs} {behaviour} {n : Nat}

theorem Tracked.length_openAfter (h : Tracked behaviour d inputs n) :
    (openAfter inputs n).length = (d.stateAt behaviour inputs n).path.length := by
  rw [← h.nested.length_selected, h.selected, List.length_map]

theorem Tracked.start (h : Tracked behaviour d inputs n) {name : ElementName}
    {attributes : Attributes} (hi : inputs[n]? = some (.event (.startElement name attributes))) :
    Tracked behaviour d inputs (n + 1) := by
  obtain ⟨hsel, hskip, hfull⟩ :=
    startElement_effect behaviour (d.stateAt behaviour inputs n) name.tag attributes
  have hn := h.nested.startElement behaviour name.tag attributes
  have hs : d.stateAt behaviour inputs (n + 1) =
      ((d.stateAt behaviour inputs n).startElement behaviour name.tag attributes).1 :=
    stateAt_succ behaviour d hi
  have hc : d.callsAt behaviour inputs n =
      ((d.stateAt behaviour inputs n).startElement behaviour name.tag attributes).2 :=
    callsAt_eq behaviour d hi
  rw [← hs] at hsel hskip hfull hn
  rw [← hc] at hfull
  have hat : d.selectedAt behaviour inputs n = resolve behaviour
      (d.stateAt behaviour inputs n).rules (d.stateAt behaviour inputs n).fallbacks
      ((d.stateAt behaviour inputs n).path.push name.tag) attributes
      (d.stateAt behaviour inputs n).workspace := by
    rw [selectedAt, hi]
  rw [← hat] at hsel hfull
  refine ⟨hn, ?_, fun inner i outer ho hlt => ?_⟩
  · rw [openAfter_start hi, hsel, h.selected, List.map_cons]
  · rw [openAfter_start hi] at ho
    cases inner with
    | nil =>
      cases ho
      -- Nothing can be remembered: it would have to lie inside the element that just began.
      refine hfull (Option.eq_none_iff_forall_ne_some.2 fun s hk => ?_)
      have hlen := (hn.skip_encloses s hk).length_le
      rw [← hn.length_selected, hsel, h.selected, List.length_cons, List.length_map] at hlen
      have := hlt s hk
      omega
    | cons k inner =>
      exact h.started inner i outer (List.cons.inj ho).2 fun s hk => hlt s (hskip s hk)

theorem Tracked.stop (h : Tracked behaviour d inputs n) {name : ElementName}
    (hi : inputs[n]? = some (.event (.endElement name))) :
    Tracked behaviour d inputs (n + 1) := by
  obtain ⟨hsel, hskip⟩ := stopElement_effect behaviour (d.stateAt behaviour inputs n) name.tag
  have hn := h.nested.stopElement behaviour name.tag
  have hs : d.stateAt behaviour inputs (n + 1) =
      ((d.stateAt behaviour inputs n).stopElement behaviour name.tag).1 :=
    stateAt_succ behaviour d hi
  rw [← hs] at hsel hskip hn
  refine ⟨hn, ?_, fun inner i outer ho hlt => ?_⟩
  · rw [openAfter_end hi, hsel, h.selected, List.map_tail]
  · rw [openAfter_end hi] at ho
    cases hl : openAfter inputs n with
    | nil =>
      rw [hl] at ho
      simp at ho
    | cons k rest =>
      rw [hl, List.tail_cons] at ho
      subst ho
      refine h.started (k :: inner) i outer hl fun s hk => ?_
      rcases hskip s hk with hk' | rfl
      · exact hlt s hk'
      · rw [← h.length_openAfter, hl]
        simp only [List.length_cons, List.length_append]
        omega

/-- Other inputs change neither what is open nor what is remembered. -/
theorem Tracked.other (h : Tracked behaviour d inputs n)
    (ho : openAfter inputs (n + 1) = openAfter inputs n)
    (hp : (d.stateAt behaviour inputs (n + 1)).path = (d.stateAt behaviour inputs n).path)
    (hs : (d.stateAt behaviour inputs (n + 1)).selected = (d.stateAt behaviour inputs n).selected)
    (hk : (d.stateAt behaviour inputs (n + 1)).skip = (d.stateAt behaviour inputs n).skip) :
    Tracked behaviour d inputs (n + 1) := by
  refine ⟨⟨?_, ?_⟩, ?_, ?_⟩
  · rw [hs, hp]
    exact h.nested.length_selected
  · rw [hk, hp]
    exact h.nested.skip_encloses
  · rw [hs, ho]
    exact h.selected
  · rw [ho, hk]
    exact h.started

theorem Tracked.succ (h : Tracked behaviour d inputs n) : Tracked behaviour d inputs (n + 1) := by
  cases hi : inputs[n]? with
  | none =>
    have hs : d.stateAt behaviour inputs (n + 1) = d.stateAt behaviour inputs n := by
      rw [stateAt, hi]
    exact h.other (by rw [openAfter, hi]) (by rw [hs]) (by rw [hs]) (by rw [hs])
  | some input =>
    have hs := stateAt_succ behaviour d hi
    cases input with
    | event e =>
      cases e with
      | startElement name attributes => exact h.start hi
      | endElement name => exact h.stop hi
      | startDocument | endDocument | moveTo | report =>
        exact h.other (by rw [openAfter, hi]) (by rw [hs]; rfl) (by rw [hs]; rfl) (by rw [hs]; rfl)
    | setFallbacks | addFallback | edit =>
      exact h.other (by rw [openAfter, hi]) (by rw [hs]; rfl) (by rw [hs]; rfl) (by rw [hs]; rfl)

end Tracked

theorem tracked [DecidableEq ι] (rules : RuleBook ι) (fallbacks : List ι) (w : Workspace α)
    (inputs : List (Input ι α)) (n : Nat) :
    Tracked behaviour (ofRules rules fallbacks w) inputs n := by
  induction n with
  | zero =>
    refine ⟨wellNested_ofRules rules fallbacks w, rfl, fun inner i outer ho => ?_⟩
    rw [openAfter] at ho
    simp at ho
  | succ n ih => exact ih.succ

/-- Where actions are called for an end, the input ends an element whose actions were all called for
its start and proceeded. They are called in that order, as far as it goes, and no other input ends
the element. -/
theorem stops_follow_complete_start [DecidableEq ι] (rules : RuleBook ι) (fallbacks : List ι)
    (w : Workspace α) (inputs : List (Input ι α)) (j : Nat)
    (hj : ((ofRules rules fallbacks w).callsAt behaviour inputs j).filterMap Call.stopped? ≠ []) :
    ∃ i actions, Closes inputs i j ∧
      (ofRules rules fallbacks w).selectedAt behaviour inputs i = some actions ∧
      StartedFully behaviour actions ((ofRules rules fallbacks w).callsAt behaviour inputs i) ∧
      ((ofRules rules fallbacks w).callsAt behaviour inputs j).filterMap Call.stopped? <+: actions ∧
      ∀ k, Closes inputs i k → k = j := by
  have ht := tracked behaviour rules fallbacks w inputs j
  generalize ofRules rules fallbacks w = d at *
  cases hi : inputs[j]? with
  | none =>
    rw [callsAt, hi] at hj
    exact absurd rfl hj
  | some input =>
    rw [callsAt_eq behaviour d hi] at hj ⊢
    obtain ⟨name, actions, outer, rfl, hs, hk, hc⟩ := stopped_accept behaviour hj
    rw [ht.selected] at hs
    obtain ⟨i, rest, ho, ha, -⟩ := List.map_eq_cons_iff.1 hs
    have hclose : Closes inputs i j := ⟨⟨name, hi⟩, by rw [ho]; rfl⟩
    refine ⟨i, actions, hclose, ha, ?_, ?_, fun k => hclose.unique⟩
    · exact ht.started [] i rest ho (fun s h => by rw [hk] at h; cases h) actions ha
    · rw [hc]
      exact stopped_closeWith_prefix behaviour name.tag _ actions

/-- An action that applies everywhere and proceeds. -/
def compliant : Behaviour α where
  start w _ _ := (w, .ok .proceed)
  stop w _ := (w, .ok .proceed)
  finish w := w
  applies _ _ _ := true

/-- An element that ends under another name, when the fallback selected for it is gone. -/
def renamed : List (Input Unit Nat) :=
  [.event (.startElement (.plain "a") .empty), .setFallbacks [], .edit (·.push 3),
    .event (.endElement (.plain "b"))]

theorem stopped_renamed :
    ((ofRules .empty [()] .empty).callsAt (fun _ => compliant) renamed 3).filterMap
      Call.stopped? ≠ [] := by
  simp [callsAt, renamed, stateAt, accept, handle, startElement, stopElement, select,
    RuleBook.actionsAt?_empty, firstApplicable, runStarts, runStops, compliant, ofRules,
    Call.stopped?]

theorem stops_follow_complete_start_renamed :
    ((ofRules .empty [()] .empty).callsAt (fun _ => compliant) renamed 3).filterMap
        Call.stopped? ≠ [] ∧
      ∃ i actions, Closes renamed i 3 ∧
        (ofRules .empty [()] .empty).selectedAt (fun _ => compliant) renamed i = some actions ∧
        StartedFully (fun _ => compliant) actions
          ((ofRules .empty [()] .empty).callsAt (fun _ => compliant) renamed i) ∧
        ((ofRules .empty [()] .empty).callsAt (fun _ => compliant) renamed 3).filterMap
          Call.stopped? <+: actions ∧
        ∀ k, Closes renamed i k → k = 3 :=
  ⟨stopped_renamed, stops_follow_complete_start _ _ _ _ _ _ stopped_renamed⟩

end DocRules.Dispatcher
