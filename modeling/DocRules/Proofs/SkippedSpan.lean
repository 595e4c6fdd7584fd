import DocRules.Proofs.DispatchVisit
import DocRules.Proofs.OpenPath

/-! # Skipped spans

From the moment at which a dispatcher remembers an element to the end of that element the document
passes it by. Actions may be looked for, and asked whether they apply, but none is called, and of
the workspace only the position moves and the log grows: by a warning for every element that has no
action, and by what the reader reports. -/

namespace DocRules

variable {ι α : Type}

def lastMove? (events : List Event) : Option Position :=
  (events.filterMap fun
    | .moveTo p => some p
    | _ => none).getLast?

theorem lastMove?_append (first second : List Event) :
    lastMove? (first ++ second) = (lastMove? second).or (lastMove? first) := by
  simp only [lastMove?, List.filterMap_append, List.getLast?_append]

/-- Of the second workspace only the position is another one, as some events tell it, and the log
has grown by some items. -/
structure Passed (events : List Event) (items : List LogItem) (w w' : Workspace α) : Prop where
  stack : w'.stack = w.stack
  objects : w'.objects = w.objects
  properties : w'.properties = w.properties
  position : w'.position = (lastMove? events).or w.position
  log : w'.log = w.log ++ items

namespace Passed

theorem refl (w : Workspace α) : Passed [] [] w w := ⟨rfl, rfl, rfl, rfl, (List.append_nil _).symm⟩

theorem trans {first second : List Event} {items items' : List LogItem} {w w' w'' : Workspace α}
    (h : Passed first items w w') (h' : Passed second items' w' w'') :
    Passed (first ++ second) (items ++ items') w w'' := by
  refine ⟨h'.stack.trans h.stack, h'.objects.trans h.objects, h'.properties.trans h.properties,
    ?_, ?_⟩
  · rw [h'.position, h.position, lastMove?_append, Option.or_assoc]
  · rw [h'.log, h.log, List.append_assoc]

/-- Events that move nowhere only add to the log. -/
theorem of_record {e : Event} (he : lastMove? [e] = none) (w : Workspace α) (item : LogItem) :
    Passed [e] [item] w (w.record item) :=
  ⟨rfl, rfl, rfl, by rw [he]; rfl, rfl⟩

theorem of_eq {e : Event} (he : lastMove? [e] = none) (w : Workspace α) : Passed [e] [] w w :=
  ⟨rfl, rfl, rfl, by rw [he]; rfl, (List.append_nil _).symm⟩

end Passed

namespace Dispatcher

variable (behaviour : ι → Behaviour α)

/-- The state comes from a fresh one by some inputs. -/
def Reachable [DecidableEq ι] (d : Dispatcher ι α) : Prop :=
  ∃ rules fallbacks w inputs n, d = (ofRules rules fallbacks w).stateAt behaviour inputs n

/-- What an event adds to the log if no action is called for it: a warning for the start of an
element without actions and for an end with nothing open, and an entry for a report. -/
def notice? (d : Dispatcher ι α) : Event → Option LogItem
  | .startElement name attributes =>
    let here := d.path.push name.tag
    if (resolve behaviour d.rules d.fallbacks here attributes d.workspace).isNone then
      some (unmatchedItem d.workspace here name.tag)
    else none
  | .endElement name =>
    if d.selected.isEmpty then
      some ⟨.warning, s!"end of element <{name.tag}> without a matching start", none,
        d.workspace.position⟩
    else none
  | .report level diagnostic => some (.ofReport level diagnostic)
  | .startDocument | .endDocument | .moveTo _ => none

/-- What events add to the log, each in the state that those before it led to. -/
def notices [DecidableEq ι] (d : Dispatcher ι α) : List Event → List LogItem
  | [] => []
  | e :: events => (d.notice? behaviour e).toList ++ (d.handle behaviour e).1.notices events

/-! ## One event -/

section Step

variable {d : Dispatcher ι α} {skip : Path}

theorem startElement_skips (name : ElementName) (attributes : Attributes)
    (hk : d.skip = some skip) :
    (d.startElement behaviour name.tag attributes).2.filter Call.ofTag = [] ∧
      Passed [.startElement name attributes]
        (d.notice? behaviour (.startElement name attributes)).toList d.workspace
        (d.startElement behaviour name.tag attributes).1.workspace := by
  have hq := calls_select behaviour d (d.path.push name.tag) attributes
  obtain ⟨hr, he⟩ | ⟨actions, skip, hr, -, he⟩ | ⟨actions, -, hn, -⟩ :=
    startElement_cases behaviour d name.tag attributes
  · rw [he, notice?, hr]
    exact ⟨hq, .of_record rfl d.workspace _⟩
  · rw [he, notice?, hr]
    exact ⟨hq, .of_eq rfl d.workspace⟩
  · rw [hn] at hk
    cases hk

theorem stopElement_skips (name : ElementName) (hk : d.skip = some skip) :
    (d.stopElement behaviour name.tag).2.filter Call.ofTag = [] ∧
      Passed [.endElement name] (d.notice? behaviour (.endElement name)).toList d.workspace
        (d.stopElement behaviour name.tag).1.workspace := by
  obtain ⟨hs, he⟩ | ⟨hs, skip', -, he⟩ | ⟨-, hn, -⟩ | ⟨actions, outer, -, hn, -⟩ :=
    stopElement_cases behaviour d name.tag
  · rw [he, notice?, hs]
    exact ⟨rfl, .of_record rfl d.workspace _⟩
  · rw [he, notice?, if_neg (mt List.isEmpty_iff.1 hs)]
    exact ⟨rfl, .of_eq rfl d.workspace⟩
  all_goals
    rw [hn] at hk
    cases hk

variable [DecidableEq ι]

/-- While an element is remembered an event calls nothing and leaves its notice. -/
theorem handle_skips {e : Event} (hk : d.skip = some skip) (he : e ≠ .endDocument) :
    (d.handle behaviour e).2.filter Call.ofTag = [] ∧
      Passed [e] (d.notice? behaviour e).toList d.workspace
        (d.handle behaviour e).1.workspace := by
  cases e with
  | startDocument => exact ⟨rfl, .of_eq rfl d.workspace⟩
  | endDocument => exact absurd rfl he
  | moveTo p => exact ⟨rfl, rfl, rfl, rfl, rfl, (List.append_nil _).symm⟩
  | report level diagnostic => exact ⟨rfl, .of_record rfl d.workspace _⟩
  | startElement name attributes => exact startElement_skips behaviour name attributes hk
  | endElement name => exact stopElement_skips behaviour name hk

end Step

/-! ## A whole span -/

/-- An end can find nothing open only if the remembered path is the empty one. -/
theorem WellNested.skip_eq_empty {d : Dispatcher ι α} (h : d.WellNested) {skip : Path}
    (hk : d.skip = some skip) (hs : d.selected = []) : skip = .empty := by
  have hl : d.path.length = 0 := by
    rw [← h.length_selected, hs]
    rfl
  refine (h.skip_encloses skip hk).eq_of_length_le ?_ |>.trans ?_
  · rw [hl]
    exact Nat.zero_le _
  · exact congrArg Path.mk (List.eq_nil_of_length_eq_zero hl)

variable [DecidableEq ι]

theorem Reachable.wellNested {d : Dispatcher ι α} (h : d.Reachable behaviour) : d.WellNested := by
  obtain ⟨rules, fallbacks, w, inputs, n, rfl⟩ := h
  exact (tracked behaviour rules fallbacks w inputs n).nested

theorem handleAll_skips {d : Dispatcher ι α} {events : List Event}
    (he : .endDocument ∉ events)
    (hk : ∀ k < events.length, (d.handleAll behaviour (events.take k)).1.skip ≠ none) :
    (d.handleAll behaviour events).2.filter Call.ofTag = [] ∧
      Passed events (d.notices behaviour events) d.workspace
        (d.handleAll behaviour events).1.workspace := by
  induction events generalizing d with
  | nil => exact ⟨rfl, .refl d.workspace⟩
  | cons e events ih =>
    obtain ⟨skip, hs⟩ : ∃ skip, d.skip = some skip :=
      Option.ne_none_iff_exists'.1 (hk 0 (Nat.succ_pos _))
    obtain ⟨hc, hp⟩ := handle_skips behaviour hs (List.ne_of_not_mem_cons he).symm
    have hrest : ∀ k < events.length,
        ((d.handle behaviour e).1.handleAll behaviour (events.take k)).1.skip ≠ none := by
      intro k hlt
      exact hk (k + 1) (Nat.succ_lt_succ hlt)
    obtain ⟨hcs, hps⟩ := ih (List.not_mem_of_not_mem_cons he) hrest
    rw [handleAll_cons, List.filter_append, hc, hcs]
    exact ⟨rfl, hp.trans hps⟩

/-- Events before each of which some element is remembered, the last one perhaps its end, call no
action and leave the workspace as it was, apart from the position and their notices. -/
theorem skipped_span {d : Dispatcher ι α} (hd : d.Reachable behaviour) {events : List Event}
    (he : .endDocument ∉ events)
    (hk : ∀ k < events.length, (d.handleAll behaviour (events.take k)).1.skip ≠ none) :
    (d.handleAll behaviour events).2.filter Call.ofTag = [] ∧
      Passed events (d.notices behaviour events) d.workspace
        (d.handleAll behaviour events).1.workspace ∧
      ∀ k name, events[k]? = some (.endElement name) →
        (d.handleAll behaviour (events.take k)).1.selected = [] →
        (d.handleAll behaviour (events.take k)).1.skip = some .empty := by
  obtain ⟨hc, hp⟩ := handleAll_skips behaviour he hk
  refine ⟨hc, hp, ?_⟩
  intro k name hi hs
  obtain ⟨hlt, -⟩ := List.getElem?_eq_some_iff.1 hi
  obtain ⟨skip, hskip⟩ := Option.ne_none_iff_exists'.1 (hk k hlt)
  have hn := (hd.wellNested behaviour).handleAll behaviour (events.take k)
  rw [hskip, hn.skip_eq_empty hskip hs]

/-- An action that applies to the outermost elements and skips what is inside them. -/
def veto : Behaviour α where
  start w _ _ := (w, .ok .skipChildren)
  stop w _ := (w, .ok .proceed)
  finish w := w
  applies path _ _ := path.length == 1

/-- The state inside an outermost element that is skipped. -/
def vetoed : Dispatcher Unit Nat :=
  (ofRules .empty [()] .empty).stateAt (fun _ => veto)
    [.event (.startElement (.plain "a") .empty)] 1

/-- The rest of that element. An element inside it has its name, and ends under another one. -/
def vetoedRest : List Event :=
  [.moveTo ⟨2, 3⟩, .startElement (.plain "a") .empty, .report .warning ⟨"odd", ⟨2, 4⟩⟩,
    .endElement (.plain "b"), .endElement (.plain "a")]

theorem vetoed_eq : vetoed = ⟨.empty, [()], .empty, ⟨["a"]⟩, [some [()]], some ⟨["a"]⟩⟩ := by
  simp [vetoed, stateAt, accept, handle, startElement, select, RuleBook.actionsAt?_empty,
    firstApplicable, runStarts, veto, ofRules, Path.push, Path.empty, Path.length,
    ElementName.plain, ElementName.tag]

theorem skip_vetoedRest : ∀ k < vetoedRest.length,
    (vetoed.handleAll (fun _ => veto) (vetoedRest.take k)).1.skip ≠ none := by
  intro k hk
  rw [vetoed_eq]
  change k < 5 at hk
  obtain rfl | rfl | rfl | rfl | rfl : k = 0 ∨ k = 1 ∨ k = 2 ∨ k = 3 ∨ k = 4 := by omega
  all_goals
    simp [vetoedRest, handleAll, handle, startElement, stopElement, select,
      RuleBook.actionsAt?_empty, firstApplicable, veto, Path.push, Path.length,
      ElementName.plain, ElementName.tag]

theorem skipped_span_vetoed : vetoed.Reachable (fun _ => veto) ∧
    .endDocument ∉ vetoedRest ∧
    (∀ k < vetoedRest.length,
      (vetoed.handleAll (fun _ => veto) (vetoedRest.take k)).1.skip ≠ none) ∧
    (vetoed.handleAll (fun _ => veto) vetoedRest).2.filter Call.ofTag = [] ∧
    Passed vetoedRest (vetoed.notices (fun _ => veto) vetoedRest) vetoed.workspace
      (vetoed.handleAll (fun _ => veto) vetoedRest).1.workspace ∧
    ∀ k name, vetoedRest[k]? = some (.endElement name) →
      (vetoed.handleAll (fun _ => veto) (vetoedRest.take k)).1.selected = [] →
      (vetoed.handleAll (fun _ => veto) (vetoedRest.take k)).1.skip = some .empty :=
  have hr : vetoed.Reachable (fun _ => veto) := ⟨.empty, [()], .empty, _, 1, rfl⟩
  have he : .endDocument ∉ vetoedRest := by decide
  ⟨hr, he, skip_vetoedRest, skipped_span (fun _ => veto) hr he skip_vetoedRest⟩

end Dispatcher

end DocRules
