import DocRules.Proofs.FirstPass

/-! # What a recording replays

Recording events and replaying them rewrites the events one by one: an element event whose namespace
is not allowed goes, every other one gets the position that was current, and the namespace and the
names that all replayed elements have. -/

namespace DocRules

/-- The name under which an element is replayed. -/
def ElementName.replayed (name : ElementName) : ElementName :=
  ⟨some log4jSpace, name.tag, name.tag⟩

@[simp]
theorem ElementName.tag_replayed (name : ElementName) : name.replayed.tag = name.tag :=
  ite_self name.tag

namespace Recording

/-- The events as they are replayed, where `p` is the current position before them. -/
def retell (s : ReadSettings) (p : Position) : List Event → List Event
  | [] => []
  | .moveTo q :: events => retell s q events
  | .startElement name attributes :: events =>
    if s.allows name.space then
      .moveTo p :: .startElement name.replayed attributes :: retell s p events
    else retell s p events
  | .endElement name :: events =>
    if s.allows name.space then .moveTo p :: .endElement name.replayed :: retell s p events
    else retell s p events
  | .startDocument :: events | .endDocument :: events | .report .. :: events => retell s p events

/-- The element events that replaying the recording brings about. -/
def replayed (r : Recording) : List Event := r.elements.toList.flatMap Recorded.events

theorem replayed_keep (r : Recording) (space : Option String) (e : Recorded) :
    (r.keep space e).replayed =
      r.replayed ++ if r.settings.allows space then e.events else [] := by
  unfold keep replayed
  split
  · rw [Array.toList_push, List.flatMap_append, List.flatMap_singleton]
  · rw [List.append_nil]

theorem settings_keep (r : Recording) (space : Option String) (e : Recorded) :
    (r.keep space e).settings = r.settings := by
  unfold keep
  split <;> rfl

theorem position_keep (r : Recording) (space : Option String) (e : Recorded) :
    (r.keep space e).position = r.position := by
  unfold keep
  split <;> rfl

theorem replayed_handleAll (r : Recording) (events : List Event) :
    (r.handleAll events).replayed = r.replayed ++ retell r.settings r.position events := by
  induction events generalizing r with
  | nil => exact (List.append_nil _).symm
  | cons e events ih =>
    rw [handleAll, List.foldl_cons, ← handleAll, ih]
    cases e with
    | startElement name attributes =>
      rw [handle, replayed_keep, settings_keep, position_keep, retell, List.append_assoc]
      split <;> rfl
    | endElement name =>
      rw [handle, replayed_keep, settings_keep, position_keep, retell, List.append_assoc]
      split <;> rfl
    | startDocument | endDocument | moveTo | report => rfl

/-- A recording of events none of which is fatal replays them, rewritten, as a document. -/
theorem replay_handleAll (s : ReadSettings) {events : List Event}
    (h : ∀ d, Event.report .fatal d ∉ events) :
    ((ofSettings s).handleAll events).replay =
      .ok (.startDocument :: (retell s .start events ++ [.endDocument])) := by
  have hfatal : ((ofSettings s).handleAll events).fatal = none := by
    rw [handleAll_fatal, head?_fatalReports_eq_none.2 h]
    rfl
  rw [replay, hfatal]
  change Except.ok (.startDocument ::
    (((ofSettings s).handleAll events).replayed ++ [.endDocument])) = _
  rw [replayed_handleAll]
  rfl

end Recording

end DocRules
