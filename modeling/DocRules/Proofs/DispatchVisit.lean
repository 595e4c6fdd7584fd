import DocRules.Proofs.Nesting

/-! # Dispatching is visiting

A dispatcher sees one event at a time and remembers a single path at whose element's end it resumes.
Fed with the events of elements it makes the calls of visiting them, and ends with the workspace of
the visit. Inside an element the two agree in this: what follows is suppressed just if some open
element is remembered, and a visit that came to suppress its siblings remembers their parent. -/

namespace DocRules.Dispatcher

variable {ι α : Type}

/-- The mode in which the elements that come next are visited. -/
def modeOf : Option Path → Mode
  | none => .active
  | some _ => .suppressed

def after (d : Dispatcher ι α) (v : Visit ι α) : Dispatcher ι α :=
  { d with workspace := v.workspace, skip := d.skip.or (skipIn d.path v.mode) }

/-- What a dispatcher came to and the calls it made are those of a visit. -/
def Agrees (d : Dispatcher ι α) (r : Dispatcher ι α × List (Call ι α)) (v : Visit ι α) : Prop :=
  r.1 = d.after v ∧ r.2.filter Call.ofTag = v.calls

section Element

variable (behaviour : ι → Behaviour α)

theorem calls_select (d : Dispatcher ι α) (path : Path) (attributes : Attributes) :
    (d.select behaviour path attributes).2.filter Call.ofTag = [] := by
  refine List.filter_eq_nil_iff.2 fun c hc => ?_
  obtain ⟨a, rfl⟩ := eq_applies_of_mem_select behaviour d path attributes c hc
  exact Bool.false_ne_true

theorem calls_openWith (tag : String) (attributes : Attributes) (w : Workspace α)
    (actions : List ι) : (openWith behaviour tag attributes w actions).calls.filter Call.ofTag =
      (openWith behaviour tag attributes w actions).calls := by
  refine List.filter_eq_self.2 fun c hc => ?_
  obtain ⟨a, u, rfl⟩ := eq_start_of_mem_openWith behaviour tag attributes w actions c hc
  rfl

theorem calls_closeWith (tag : String) (w : Workspace α) (actions : List ι) :
    (closeWith behaviour tag w actions).calls.filter Call.ofTag =
      (closeWith behaviour tag w actions).calls := by
  refine List.filter_eq_self.2 fun c hc => ?_
  obtain ⟨a, u, rfl⟩ := eq_stop_of_mem_closeWith behaviour tag w actions c hc
  rfl

theorem or_skipIn_modeOf (skip : Option Path) (path : Path) :
    skip = skip.or (skipIn path (modeOf skip)) := by
  cases skip <;> rfl

theorem modeOf_skipAfter (path : Path) (flow : Flow) :
    modeOf (skipAfter path flow) = flow.contentMode := by
  cases flow <;> rfl

/-- At the end of an element whose actions are not to be called, what was remembered before the
element is remembered again: its content can have added only the element itself. -/
theorem stopElement_inside {actions? : Option (List ι)} {tag : String} {w : Workspace α}
    {inner : Visit ι α} {d : Dispatcher ι α} (closed : Position) (hd : d.WellNested)
    (ha : actions? = none ∨ d.skip ≠ none) :
    (((d.enter tag actions? w d.skip).after inner).moveTo closed).stopElement behaviour tag =
      ((((d.enter tag actions? w d.skip).after inner).moveTo closed).leave
        (inner.workspace.moveTo closed) d.skip, []) := by
  cases hs : d.skip with
  | none =>
    obtain rfl : actions? = none := ha.resolve_right (not_not_intro hs)
    cases hm : inner.mode with
    | active =>
      exact stopElement_unmatched behaviour tag rfl (congrArg (skipIn (d.path.push tag)) hm)
    | suppressed =>
      exact stopElement_resuming behaviour tag rfl (congrArg (skipIn (d.path.push tag)) hm)
  | some skip =>
    exact stopElement_skipping behaviour tag rfl rfl ((hd.skip_encloses skip hs).push_ne tag)

variable [DecidableEq ι]

/-- The content of an element is dispatched as it is visited, from any state. -/
def ContentAgrees (content : List Element) : Prop :=
  ∀ b : Dispatcher ι α, b.WellNested →
    Agrees b (b.handleAll behaviour (Forest.events content))
      (visitAll behaviour b.rules b.fallbacks b.path (modeOf b.skip) b.workspace content)

variable {behaviour} in
theorem ContentAgrees.enter {d : Dispatcher ι α} {content : List Element}
    (hc : ContentAgrees behaviour content) (hd : d.WellNested) {tag : String}
    (actions? : Option (List ι)) (w : Workspace α) {skip : Option Path}
    (hs : ∀ s, skip = some s → s.Encloses (d.path.push tag)) :
    Agrees (d.enter tag actions? w skip)
      ((d.enter tag actions? w skip).handleAll behaviour (Forest.events content))
      (visitAll behaviour d.rules d.fallbacks (d.path.push tag) (modeOf skip) w content) :=
  hc _ (hd.enter hs)

variable {d : Dispatcher ι α} {name : ElementName} {attributes : Attributes}
  {opened closed : Position} {content : List Element}

/-- An element agrees with a visit if its tags do: what is remembered after its end is what was
remembered before, or its parent if the visit suppresses its siblings. -/
theorem agrees_of_tags {actions? : Option (List ι)} {w w' : Workspace α} {s s' : Option Path}
    {inner : Visit ι α} {mode' : Mode} {first last calls : List (Call ι α)}
    (hb : (d.moveTo opened).startElement behaviour name.tag attributes =
      (d.enter name.tag actions? w s, first))
    (hi : Agrees (d.enter name.tag actions? w s)
      ((d.enter name.tag actions? w s).handleAll behaviour (Forest.events content)) inner)
    (he : (((d.enter name.tag actions? w s).after inner).moveTo closed).stopElement behaviour
      name.tag = ((((d.enter name.tag actions? w s).after inner).moveTo closed).leave w' s', last))
    (hs : s' = d.skip.or (skipIn d.path mode'))
    (hl : first.filter Call.ofTag ++ inner.calls ++ last.filter Call.ofTag = calls) :
    Agrees d (d.handleAll behaviour (Element.mk name attributes opened closed content).events)
      ⟨w', mode', calls⟩ := by
  have h : d.handleAll behaviour (Element.mk name attributes opened closed content).events =
      ((((d.enter name.tag actions? w s).after inner).moveTo closed).leave w' s',
        first ++ ((d.enter name.tag actions? w s).handleAll behaviour
          (Forest.events content)).2 ++ last) := by
    change handleAll behaviour d (.moveTo opened :: .startElement name attributes ::
      (Forest.events content ++ [.moveTo closed, .endElement name])) = _
    rw [handleAll_cons, handleAll_cons, handleAll_append]
    simp only [handle_moveTo, handle_startElement, hb, hi.1, handleAll_cons, handle_endElement, he,
      handleAll_nil, List.append_nil, List.nil_append, List.append_assoc]
  rw [h]
  refine ⟨?_, ?_⟩
  · simp only [leave, moveTo, after, enter, Path.parent_push, List.tail_cons, hs]
  · rw [List.filter_append, List.filter_append, hi.2, hl]

/-- An element whose actions are not called: only its content makes calls. -/
theorem agrees_uncalled {actions? : Option (List ι)} {w : Workspace α} (hd : d.WellNested)
    (hc : ContentAgrees behaviour content) (ha : actions? = none ∨ d.skip ≠ none)
    (hb : (d.moveTo opened).startElement behaviour name.tag attributes =
      (d.enter name.tag actions? w d.skip,
        ((d.moveTo opened).select behaviour (d.path.push name.tag) attributes).2)) :
    let inner := visitAll behaviour d.rules d.fallbacks (d.path.push name.tag) (modeOf d.skip) w
      content
    Agrees d (d.handleAll behaviour (Element.mk name attributes opened closed content).events)
      ⟨inner.workspace.moveTo closed, modeOf d.skip, inner.calls⟩ := by
  refine agrees_of_tags behaviour hb (hc.enter hd actions? w ?_)
    (stopElement_inside behaviour closed hd ha) (or_skipIn_modeOf d.skip d.path) ?_
  · exact fun s hs => (hd.skip_encloses s hs).push name.tag
  · rw [calls_select, List.filter_nil, List.append_nil]
    rfl

theorem agrees_unmatched (hd : d.WellNested) (hc : ContentAgrees behaviour content)
    (hr : resolve behaviour d.rules d.fallbacks (d.path.push name.tag) attributes
      (d.workspace.moveTo opened) = none) :
    Agrees d (d.handleAll behaviour (Element.mk name attributes opened closed content).events)
      (visit behaviour d.rules d.fallbacks d.path (modeOf d.skip) d.workspace
        (.mk name attributes opened closed content)) := by
  rw [visit_unmatched _ hr]
  exact agrees_uncalled behaviour hd hc (.inl rfl) (startElement_unmatched behaviour hr)

theorem agrees_skipping {skip : Path} {actions : List ι} (hd : d.WellNested)
    (hc : ContentAgrees behaviour content) (hs : d.skip = some skip)
    (hr : resolve behaviour d.rules d.fallbacks (d.path.push name.tag) attributes
      (d.workspace.moveTo opened) = some actions) :
    Agrees d (d.handleAll behaviour (Element.mk name attributes opened closed content).events)
      (visit behaviour d.rules d.fallbacks d.path (modeOf d.skip) d.workspace
        (.mk name attributes opened closed content)) := by
  have hn : d.skip ≠ none := by
    rw [hs]
    exact Option.some_ne_none skip
  have hb := startElement_skipping behaviour (d := d.moveTo opened) hr hs
  rw [← hs] at hb
  have hm : modeOf d.skip = .suppressed := by
    rw [hs]
    rfl
  rw [hm, visit_suppressed hr, ← hm]
  exact agrees_uncalled behaviour hd hc (.inr hn) hb

/-- An element whose actions are called: the flow of its start and the mode after its content decide
what its end does. -/
theorem agrees_endVisit {actions : List ι} {opening : Opening ι α} {inner : Visit ι α}
    {first : List (Call ι α)} (hs : d.skip = none)
    (hb : (d.moveTo opened).startElement behaviour name.tag attributes =
      (d.enter name.tag (some actions) opening.workspace
        (skipAfter (d.path.push name.tag) opening.flow), first))
    (hf : first.filter Call.ofTag = opening.calls)
    (hi : Agrees (d.enter name.tag (some actions) opening.workspace
        (skipAfter (d.path.push name.tag) opening.flow))
      ((d.enter name.tag (some actions) opening.workspace
        (skipAfter (d.path.push name.tag) opening.flow)).handleAll behaviour
          (Forest.events content)) inner) :
    Agrees d (d.handleAll behaviour (Element.mk name attributes opened closed content).events)
      (endVisit behaviour name.tag actions closed opening inner) := by
  have hn : opening.calls ++ inner.calls ++ [] = opening.calls ++ inner.calls := List.append_nil _
  have hp := d.path.parent_push name.tag
  obtain ⟨wo, flow, co⟩ := opening
  obtain ⟨wi, mode, ci⟩ := inner
  cases flow with
  | proceed =>
    cases mode with
    | active =>
      refine agrees_of_tags behaviour hb hi (stopElement_active behaviour name.tag rfl rfl) ?_ ?_
      · rw [hs]
        exact congrArg (skipIn · _) hp
      · rw [hf]
        exact congrArg (co ++ ci ++ ·) (calls_closeWith behaviour name.tag _ actions)
    | suppressed =>
      refine agrees_of_tags behaviour hb hi (stopElement_resuming behaviour name.tag rfl rfl) ?_ ?_
      · rw [hs]
        rfl
      · rw [hf]
        exact hn
  | skipChildren =>
    refine agrees_of_tags behaviour hb hi (stopElement_resuming behaviour name.tag rfl rfl) ?_ ?_
    · rw [hs]
      rfl
    · rw [hf]
      exact hn
  | skipSiblings =>
    have hne : (d.path.push name.tag).parent ≠ d.path.push name.tag := by
      rw [hp]
      exact (Path.Encloses.refl d.path).push_ne name.tag
    refine agrees_of_tags behaviour hb hi
      (stopElement_skipping behaviour name.tag rfl rfl hne) ?_ ?_
    · rw [hs]
      exact congrArg some hp
    · rw [hf]
      exact hn

theorem agrees_active {actions : List ι} (hd : d.WellNested)
    (hc : ContentAgrees behaviour content) (hs : d.skip = none)
    (hr : resolve behaviour d.rules d.fallbacks (d.path.push name.tag) attributes
      (d.workspace.moveTo opened) = some actions) :
    Agrees d (d.handleAll behaviour (Element.mk name attributes opened closed content).events)
      (visit behaviour d.rules d.fallbacks d.path .active d.workspace
        (.mk name attributes opened closed content)) := by
  rw [visit_active hr]
  refine agrees_endVisit behaviour hs (startElement_active behaviour hr hs) ?_ ?_
  · rw [List.filter_append, calls_select]
    exact calls_openWith behaviour name.tag attributes _ actions
  · rw [← modeOf_skipAfter (d.path.push name.tag)]
    exact hc.enter hd _ _ fun s h => skipAfter_encloses h

theorem agrees_visit (hd : d.WellNested) (hc : ContentAgrees behaviour content) :
    Agrees d (d.handleAll behaviour (Element.mk name attributes opened closed content).events)
      (visit behaviour d.rules d.fallbacks d.path (modeOf d.skip) d.workspace
        (.mk name attributes opened closed content)) := by
  cases hr : resolve behaviour d.rules d.fallbacks (d.path.push name.tag) attributes
    (d.workspace.moveTo opened) with
  | none => exact agrees_unmatched behaviour hd hc hr
  | some actions =>
    cases hs : d.skip with
    | some skip => exact hs ▸ agrees_skipping behaviour hd hc hs hr
    | none => exact agrees_active behaviour hd hc hs hr

end Element

variable (behaviour : ι → Behaviour α)

theorem modeOf_after_visit (d : Dispatcher ι α) (e : Element) :
    modeOf (d.after (visit behaviour d.rules d.fallbacks d.path (modeOf d.skip) d.workspace e)).skip
      = (visit behaviour d.rules d.fallbacks d.path (modeOf d.skip) d.workspace e).mode := by
  cases hs : d.skip with
  | none =>
    generalize visit behaviour d.rules d.fallbacks d.path (modeOf none) d.workspace e = v
    rw [after, hs, Option.none_or]
    cases hm : v.mode <;> rfl
  | some skip =>
    rw [after, hs]
    exact mode_visit_suppressed e |>.symm

/-- The parent stays remembered once it is, since a suppressed visit ends suppressed. -/
theorem after_visitAll (d : Dispatcher ι α) (v : Visit ι α) (forest : Forest) :
    let others := visitAll behaviour d.rules d.fallbacks d.path v.mode v.workspace forest
    (d.after v).after others =
      d.after ⟨others.workspace, others.mode, v.calls ++ others.calls⟩ := by
  intro others
  have hs : (d.skip.or (skipIn d.path v.mode)).or (skipIn d.path others.mode) =
      d.skip.or (skipIn d.path others.mode) := by
    rw [Option.or_assoc]
    cases hm : v.mode with
    | active => rfl
    | suppressed =>
      have ho : others.mode = .suppressed := by
        simp only [others, hm, mode_visitAll_suppressed]
      rw [ho]
      rfl
  simp only [after, hs]

variable [DecidableEq ι]

/-- One element after the other: what is remembered tells the mode that the first one left. -/
theorem agrees_cons {d : Dispatcher ι α} {e : Element} {forest : Forest}
    (hb : (d.handleAll behaviour e.events).1.WellNested)
    (he : Agrees d (d.handleAll behaviour e.events)
      (visit behaviour d.rules d.fallbacks d.path (modeOf d.skip) d.workspace e))
    (hf : ContentAgrees behaviour forest) :
    Agrees d (d.handleAll behaviour (Forest.events (e :: forest)))
      (visitAll behaviour d.rules d.fallbacks d.path (modeOf d.skip) d.workspace
        (e :: forest)) := by
  obtain ⟨hs, hc⟩ := hf _ hb
  rw [he.1, modeOf_after_visit] at hs hc
  rw [Forest.events, handleAll_append, visitAll]
  refine ⟨?_, ?_⟩
  · rw [he.1, hs]
    exact after_visitAll behaviour d _ forest
  · rw [List.filter_append, he.1, he.2, hc]
    rfl

mutual
theorem elementAgrees : ∀ (e : Element) (d : Dispatcher ι α), d.WellNested →
    Agrees d (d.handleAll behaviour e.events)
      (visit behaviour d.rules d.fallbacks d.path (modeOf d.skip) d.workspace e)
  | .mk _ _ _ _ content, _, hd => agrees_visit behaviour hd (contentAgrees content)

theorem contentAgrees : ∀ forest : List Element, ContentAgrees (α := α) behaviour forest
  | [], d, _ => ⟨congrArg (fun skip => { d with skip }) (or_skipIn_modeOf d.skip d.path), rfl⟩
  | e :: forest, d, hd =>
    agrees_cons behaviour (hd.handleAll behaviour _) (elementAgrees e d hd) (contentAgrees forest)
end

/-- Dispatching the events of elements from a fresh state makes the calls of visiting the elements,
each on the same workspace, and ends with the workspace of the visit. -/
theorem dispatch_forest (rules : RuleBook ι) (fallbacks : List ι) (w : Workspace α)
    (forest : Forest) :
    let run := (ofRules rules fallbacks w).handleAll behaviour forest.events
    let visited := visitAll behaviour rules fallbacks .empty .active w forest
    run.2.filter Call.ofTag = visited.calls ∧ run.1.workspace = visited.workspace := by
  obtain ⟨hs, hc⟩ := contentAgrees behaviour forest _ (wellNested_ofRules rules fallbacks w)
  exact ⟨hc, congrArg workspace hs⟩

end DocRules.Dispatcher
