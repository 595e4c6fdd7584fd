import Mathlib
import DocRules.Proofs.AllOrNothing
import DocRules.Proofs.Framing
import DocRules.Proofs.Replay
import DocRules.Proofs.Run
import DocRules.Trace

/-! # Two passes do what one would

A document about which nothing is reported, and of which every element is kept, could as well be
dispatched while it is read. The replayed events differ: the position is told again before the end of
an element without content, and elements have other names. Actions see neither, as rules go by the
tag and the start of an element leaves the position where it was. -/

namespace DocRules

/-- What remains of a document with nothing to report, in which every element is kept: each position
is that of the tags right behind it, two of them for an element without content. -/
inductive Placed (s : ReadSettings) : List Event → Prop where
  | done : Placed s [.endDocument]
  | start {p : Position} {name : ElementName} {attributes : Attributes} {rest : List Event} :
      s.allows name.space = true → Placed s rest →
      Placed s (.moveTo p :: .startElement name attributes :: rest)
  | stop {p : Position} {name : ElementName} {rest : List Event} :
      s.allows name.space = true → Placed s rest → Placed s (.moveTo p :: .endElement name :: rest)
  | empty {p : Position} {name : ElementName} {attributes : Attributes} {rest : List Event} :
      s.allows name.space = true → Placed s rest →
      Placed s (.moveTo p :: .startElement name attributes :: .endElement name :: rest)

/-! ## Reading -/

/-- Nothing is reported, and every element that begins is kept. -/
structure Smooth (s : ReadSettings) (events : List Event) : Prop where
  silent : ∀ level d, Event.report level d ∉ events
  kept : ∀ name attributes, Event.startElement name attributes ∈ events →
    s.allows name.space = true

theorem Smooth.of_append {s : ReadSettings} {first events : List Event}
    (h : Smooth s (first ++ events)) : Smooth s events where
  silent level d hd := h.silent level d (List.mem_append_right first hd)
  kept name attributes hs := h.kept name attributes (List.mem_append_right first hs)

theorem Smooth.of_cons {s : ReadSettings} {e : Event} {events : List Event}
    (h : Smooth s (e :: events)) : Smooth s events :=
  have happend : Smooth s ([e] ++ events) := h
  happend.of_append

namespace Markup

/-- The element of the tag was told of, and is kept. -/
def Tag.Kept (s : ReadSettings) (tag : Tag) : Prop :=
  ∃ space, tag.space = .ok space ∧ s.allows space = true

theorem startEvents_smooth {s : ReadSettings} {tag : Tag} {content : List Char} {p : Position}
    {rest : List Event} (h : Smooth s (startEvents tag content p ++ rest)) :
    ∃ space, tag.space = .ok space ∧ s.allows space = true ∧
      startEvents tag content p =
        [.moveTo p, .startElement (tag.elementName space) (keptOf (outcomesOf content))] := by
  cases hs : tag.space with
  | error qualifier =>
    obtain ⟨reason, he⟩ := startEvents_undeclared hs content p
    rw [he] at h
    exact absurd (by simp) (h.silent .error ⟨reason, p⟩)
  | ok space =>
    rw [startEvents_declared hs] at h ⊢
    refine ⟨space, rfl, h.kept (tag.elementName space) (keptOf (outcomesOf content)) (by simp), ?_⟩
    cases hp : problemsOf (outcomesOf content) with
    | nil => rfl
    | cons reason reasons =>
      rw [hp] at h
      exact absurd (by simp) (h.silent .error ⟨reason, p⟩)

theorem not_smooth_abort {s : ReadSettings} {r : Progress} {message : String} {offset : Nat} :
    ¬ Smooth s (r.abort message offset) :=
  fun h => h.silent .fatal _ (List.mem_singleton.2 rfl)

/-- A token about which nothing is reported puts its tags in front of what follows. -/
theorem placed_step {s : ReadSettings} {token : Token} {opened next : List Tag}
    (h : token.Leads opened next) (r : Progress) (stop : Nat) {rest : List Event}
    (ho : ∀ tag ∈ opened, tag.Kept s) (hs : Smooth s ((r.step stop token).1 ++ rest)) :
    (∀ tag ∈ next, tag.Kept s) ∧ (Placed s rest → Placed s ((r.step stop token).1 ++ rest)) := by
  cases token with
  | silent =>
    obtain rfl := h
    exact ⟨ho, id⟩
  | doctype content => exact absurd List.mem_cons_self (hs.silent .warning _)
  | startTag tag content =>
    obtain rfl := h
    obtain ⟨space, htag, ha, he⟩ := startEvents_smooth hs
    refine ⟨fun t hm => ?_, fun hp => ?_⟩
    · rcases List.mem_cons.1 hm with rfl | hm
      · exact ⟨space, htag, ha⟩
      · exact ho t hm
    · show Placed s (startEvents tag content _ ++ rest)
      rw [he]
      exact .start ha hp
  | emptyTag tag content =>
    obtain rfl := h
    have hevents : (r.step stop (.emptyTag tag content)).1 ++ rest =
        startEvents tag content (r.cursor.locate stop).2 ++ (endEvents tag ++ rest) :=
      List.append_assoc ..
    rw [hevents] at hs ⊢
    obtain ⟨space, htag, ha, he⟩ := startEvents_smooth hs
    refine ⟨ho, fun hp => ?_⟩
    rw [he, endEvents_declared htag]
    exact .empty ha hp
  | endTag tag =>
    obtain rfl := h
    obtain ⟨space, htag, ha⟩ := ho tag List.mem_cons_self
    refine ⟨fun t hm => ho t (List.mem_cons_of_mem tag hm), fun hp => ?_⟩
    show Placed s (.moveTo _ :: endEvents tag ++ rest)
    rw [endEvents_declared htag]
    exact .stop ha hp

theorem placed_events {s : ReadSettings} {tokens : Tokens} {opened : List Tag}
    (hn : tokens.Nested opened) (r : Progress) (ho : ∀ tag ∈ opened, tag.Kept s)
    (h : Smooth s (r.events tokens)) : Placed s (r.events tokens) := by
  induction tokens generalizing opened r with
  | eof offset =>
    obtain ⟨message, he⟩ | ⟨-, -, he⟩ := r.events_eof offset
    · rw [he] at h
      exact absurd h not_smooth_abort
    · rw [he]
      exact .done
  | fault fault offset => exact absurd h not_smooth_abort
  | next stop token rest ih =>
    obtain ⟨next, hleads, hrest⟩ := hn
    obtain ⟨hopen, hplaced⟩ := placed_step hleads r stop ho h
    exact hplaced (ih hrest _ hopen h.of_append)

end Markup

/-! ## Dispatching -/

namespace Dispatcher

variable {ι α : Type} {behaviour : ι → Behaviour α}

theorem position_openWith
    (hb : ∀ a w tag attributes, ((behaviour a).start w tag attributes).1.position = w.position)
    (tag : String) (attributes : Attributes) (w : Workspace α) (actions : List ι) :
    (openWith behaviour tag attributes w actions).workspace.position = w.position := by
  induction actions generalizing w with
  | nil => rfl
  | cons a actions ih =>
    have ha := hb a w tag attributes
    rw [openWith]
    rcases hs : (behaviour a).start w tag attributes with ⟨w', fault | flow⟩
    · rw [hs] at ha
      exact ha
    · rw [hs] at ha
      cases flow with
      | proceed => exact (ih w').trans ha
      | skipChildren => exact ha
      | skipSiblings => exact ha

theorem position_startElement
    (hb : ∀ a w tag attributes, ((behaviour a).start w tag attributes).1.position = w.position)
    (d : Dispatcher ι α) (tag : String) (attributes : Attributes) :
    (d.startElement behaviour tag attributes).1.workspace.position = d.workspace.position := by
  cases hr : resolve behaviour d.rules d.fallbacks (d.path.push tag) attributes d.workspace with
  | none =>
    rw [startElement_unmatched behaviour hr]
    rfl
  | some actions =>
    cases hs : d.skip with
    | some skip =>
      rw [startElement_skipping behaviour hr hs]
      rfl
    | none =>
      rw [startElement_active behaviour hr hs]
      exact position_openWith hb tag attributes d.workspace actions

theorem moveTo_of_position {d : Dispatcher ι α} {p : Position}
    (h : d.workspace.position = some p) : d.moveTo p = d := by
  have hw : d.workspace.moveTo p = d.workspace := by
    rw [Workspace.moveTo, ← h]
  rw [moveTo, hw]

variable [DecidableEq ι]

/-- The events of a document and the same events replayed come to the same, from any state. -/
theorem handleAll_retell
    (hb : ∀ a w tag attributes, ((behaviour a).start w tag attributes).1.position = w.position)
    {s : ReadSettings} {events : List Event} (h : Placed s events) (p : Position)
    (d : Dispatcher ι α) :
    d.handleAll behaviour (Recording.retell s p events ++ [.endDocument]) =
      d.handleAll behaviour events := by
  induction h generalizing p d with
  | done => rfl
  | @start q name attributes rest ha _ ih =>
    rw [Recording.retell, Recording.retell, if_pos ha]
    simp only [List.cons_append, handleAll_cons, handle_startElement, ElementName.tag_replayed, ih]
  | @stop q name rest ha _ ih =>
    rw [Recording.retell, Recording.retell, if_pos ha]
    simp only [List.cons_append, handleAll_cons, handle_endElement, ElementName.tag_replayed, ih]
  | @empty q name attributes rest ha _ ih =>
    have hq : ((d.moveTo q).startElement behaviour name.tag attributes).1.moveTo q =
        ((d.moveTo q).startElement behaviour name.tag attributes).1 :=
      moveTo_of_position (position_startElement hb (d.moveTo q) name.tag attributes)
    rw [Recording.retell, Recording.retell, if_pos ha, Recording.retell, if_pos ha]
    simp only [List.cons_append, handleAll_cons, handle_moveTo, handle_startElement,
      handle_endElement, ElementName.tag_replayed, hq, ih, List.nil_append]

end Dispatcher

namespace Session

variable {ι α : Type}

theorem placed_firstPass {s : Session ι α} {text : String}
    (h : Smooth s.settings.reading (s.firstPass text)) :
    ∃ events, s.firstPass text = .startDocument :: events ∧ Placed s.settings.reading events := by
  have hnested := Markup.nested_tokens s.settings.reading.trim
    (Markup.dropByteOrderMark text.toList)
  exact ⟨_, rfl, Markup.placed_events hnested _ (fun tag ht => nomatch ht) h.of_cons⟩

theorem prepared_of_silent {s : Session ι α} {text : String}
    (h : ∀ level d, Event.report level d ∉ s.firstPass text) :
    s.prepared (s.record text) = s.workspace.setProperties s.settings.properties := by
  have hlog : (s.record text).log = [] := by
    rw [record_log, reportItems, List.filterMap_eq_nil_iff]
    intro e he
    cases e with
    | report level d => exact absurd he (h level d)
    | startDocument | endDocument | moveTo | startElement | endElement => rfl
  rw [prepared, hlog, Workspace.recordAll, List.append_nil]

variable [DecidableEq ι]

/-- If nothing is reported of a text and all its elements are kept, running it makes the same calls
on the same workspaces, and leaves the same workspace, as dispatching what is read of it directly.
The starts of elements must not change the position. -/
theorem runText_eq_direct (behaviour : ι → Behaviour α) (s : Session ι α) (text : String)
    (hsilent : ∀ level d, Event.report level d ∉ s.firstPass text)
    (hkept : ∀ name attributes, Event.startElement name attributes ∈ s.firstPass text →
      s.settings.reading.allows name.space = true)
    (hb : ∀ a w tag attributes, ((behaviour a).start w tag attributes).1.position = w.position) :
    let w := s.workspace.setProperties s.settings.properties
    let direct := (Dispatcher.ofRules s.rules s.fallbacks w).handleAll behaviour (s.firstPass text)
    (s.runText behaviour text).outcome = .ok () ∧
      (s.runText behaviour text).calls = direct.2 ∧
      (s.runText behaviour text).session.workspace = direct.1.workspace := by
  obtain ⟨events, he, hp⟩ := placed_firstPass ⟨hsilent, hkept⟩
  have hreplay : (s.record text).replay = .ok (.startDocument ::
      (Recording.retell s.settings.reading .start events ++ [.endDocument])) := by
    have h := Recording.replay_handleAll s.settings.reading (hsilent .fatal)
    rw [he, Recording.retell, ← he] at h
    exact h
  intro w direct
  have hd : (Dispatcher.ofRules s.rules s.fallbacks w).handleAll behaviour (.startDocument ::
      (Recording.retell s.settings.reading .start events ++ [.endDocument])) = direct := by
    simp only [direct, he, Dispatcher.handleAll_cons, Dispatcher.handleAll_retell hb hp]
  have hrun : s.runText behaviour text =
      ⟨{ s with workspace := direct.1.workspace }, .ok (), direct.2⟩ := by
    rw [runText, play, prepared_of_silent hsilent, hreplay]
    simp only [hd, w]
  rw [hrun]
  exact ⟨rfl, rfl, rfl⟩

/-- A document with elements in a namespace of their own, one of them without content. -/
def qualified : String := "<a xmlns=\"u\"><b/></a>"

/-- A session that traces documents with such elements. -/
def tracing : Session Unit Nat := Trace.sessionOf ⟨⟨["u"], true⟩, .empty⟩

theorem firstPass_qualified : tracing.firstPass qualified =
    [.startDocument, .moveTo ⟨1, 14⟩, .startElement ⟨some "u", "a", "a"⟩ ⟨[]⟩, .moveTo ⟨1, 18⟩,
      .startElement ⟨some "u", "b", "b"⟩ ⟨[]⟩, .endElement ⟨some "u", "b", "b"⟩, .moveTo ⟨1, 22⟩,
      .endElement ⟨some "u", "a", "a"⟩, .endDocument] := by
  cbv

theorem silent_qualified (level : Level) (d : Diagnostic) :
    Event.report level d ∉ tracing.firstPass qualified := by
  rw [firstPass_qualified]
  simp

theorem kept_qualified (name : ElementName) (attributes : Attributes)
    (h : Event.startElement name attributes ∈ tracing.firstPass qualified) :
    tracing.settings.reading.allows name.space = true := by
  rw [firstPass_qualified] at h
  simp only [List.mem_cons, List.not_mem_nil, or_false, reduceCtorEq, false_or,
    Event.startElement.injEq] at h
  rcases h with ⟨rfl, -⟩ | ⟨rfl, -⟩ <;> decide

theorem runText_eq_direct_qualified :
    let behaviour : Unit → Behaviour Nat := fun _ => Trace.follow
    let direct := (Dispatcher.ofRules tracing.rules tracing.fallbacks
      (tracing.workspace.setProperties tracing.settings.properties)).handleAll behaviour
        (tracing.firstPass qualified)
    (∀ level d, Event.report level d ∉ tracing.firstPass qualified) ∧
      (∀ name attributes, Event.startElement name attributes ∈ tracing.firstPass qualified →
        tracing.settings.reading.allows name.space = true) ∧
      (∀ a w tag attributes, ((behaviour a).start w tag attributes).1.position = w.position) ∧
      (tracing.runText behaviour qualified).outcome = .ok () ∧
      (tracing.runText behaviour qualified).calls = direct.2 ∧
      (tracing.runText behaviour qualified).session.workspace = direct.1.workspace :=
  ⟨silent_qualified, kept_qualified, fun _ _ _ _ => rfl,
    runText_eq_direct _ _ _ silent_qualified kept_qualified fun _ _ _ _ => rfl⟩

end Session

end DocRules
