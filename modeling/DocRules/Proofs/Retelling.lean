import DocRules.Proofs.Replay
import DocRules.Proofs.SkippedSpan

/-! # A replay tells of the elements kept

What a replay tells of an event depends on the event and on those before it only: on the last
position that they moved to. Nothing else that came before leaves a trace, dropped elements and
reports included. Since a replay moves before every element and has one name for each, recording it
and replaying that tells the same again. -/

namespace DocRules

@[simp]
theorem ElementName.space_replayed (name : ElementName) :
    name.replayed.space = some log4jSpace := rfl

@[simp]
theorem ElementName.replayed_replayed (name : ElementName) :
    name.replayed.replayed = name.replayed := by
  show (⟨some log4jSpace, name.replayed.tag, name.replayed.tag⟩ : ElementName) = _
  rw [ElementName.tag_replayed]
  rfl

namespace Recording

/-- What a replay tells of an event behind some others. -/
def retold (s : ReadSettings) (before : List Event) : Event → List Event
  | .startElement name attributes =>
    if s.allows name.space then
      [.moveTo ((lastMove? before).getD .start), .startElement name.replayed attributes]
    else []
  | .endElement name =>
    if s.allows name.space then
      [.moveTo ((lastMove? before).getD .start), .endElement name.replayed]
    else []
  | .startDocument | .endDocument | .moveTo _ | .report .. => []

/-- A document that tells of each event once, in order. -/
def retelling (s : ReadSettings) (events : List Event) : List Event :=
  .startDocument ::
    ((events.mapIdx fun i e => retold s (events.take i) e).flatten ++ [.endDocument])

/-- The position that is carried from event to event is that of the last move. -/
theorem retell_eq_flatten (s : ReadSettings) (before events : List Event) :
    retell s ((lastMove? before).getD .start) events =
      (events.mapIdx fun i e => retold s (before ++ events.take i) e).flatten := by
  induction events generalizing before with
  | nil => rfl
  | cons e events ih =>
    have hsplit : ∀ i, before ++ (e :: events).take (i + 1) = (before ++ [e]) ++ events.take i := by
      intro i
      simp
    rw [List.mapIdx_cons, List.flatten_cons]
    simp only [hsplit, ← ih, List.take_zero, List.append_nil, lastMove?_append]
    cases e with
    | moveTo p => rfl
    | startElement name attributes =>
      rw [retell, retold]
      split <;> rfl
    | endElement name =>
      rw [retell, retold]
      split <;> rfl
    | startDocument | endDocument | report => rfl

theorem retell_start (s : ReadSettings) (events : List Event) :
    .startDocument :: (retell s .start events ++ [.endDocument]) = retelling s events := by
  rw [retelling]
  exact congrArg (fun told => .startDocument :: (told ++ [.endDocument]))
    (retell_eq_flatten s [] events)

theorem report_notMem_retell (s : ReadSettings) (p : Position) (events : List Event) (level : Level)
    (d : Diagnostic) : .report level d ∉ retell s p events := by
  induction events generalizing p with
  | nil => simp [retell]
  | cons e events ih =>
    cases e with
    | startElement | endElement =>
      rw [retell]
      split <;> simp [ih]
    | startDocument | endDocument | moveTo | report => exact ih _

theorem report_notMem_retelling (s : ReadSettings) (events : List Event) (level : Level)
    (d : Diagnostic) : .report level d ∉ retelling s events := by
  rw [← retell_start]
  simp [report_notMem_retell]

/-- What was retold is retold unchanged, wherever reading it begins. -/
theorem retell_retell {t : ReadSettings} (ht : t.allows (some log4jSpace) = true)
    (s : ReadSettings) (p q : Position) (events : List Event) :
    retell t q (retell s p events ++ [.endDocument]) = retell s p events := by
  induction events generalizing p q with
  | nil => rfl
  | cons e events ih =>
    cases e with
    | startElement name attributes =>
      simp only [retell]
      split
      · simp [retell, ht, ih]
      · exact ih p q
    | endElement name =>
      simp only [retell]
      split
      · simp [retell, ht, ih]
      · exact ih p q
    | moveTo p' => exact ih p' q
    | startDocument | endDocument | report => exact ih p q

/-- A recording of events none of which is fatal replays a document that tells of each element event
whose namespace is allowed, once and in order, right behind a move to the last position before it, and
of no problem. Recorded under any settings that allow the namespace of replayed elements, the document
is replayed as it is. -/
theorem replay_retelling (s : ReadSettings) (events : List Event)
    (h : ∀ d, Event.report .fatal d ∉ events) :
    ((ofSettings s).handleAll events).replay = .ok (retelling s events) ∧
      (∀ level d, .report level d ∉ retelling s events) ∧
      ∀ t : ReadSettings, t.allows (some log4jSpace) = true →
        ((ofSettings t).handleAll (retelling s events)).replay = .ok (retelling s events) := by
  have hreports := report_notMem_retelling s events
  refine ⟨?_, hreports, ?_⟩
  · rw [replay_handleAll s h, retell_start]
  · intro t ht
    rw [replay_handleAll t fun d => hreports .fatal d, ← retell_start]
    simp only [retell, retell_retell ht]

/-- Elements that do not pair up, one of them without a local name and one that is dropped. -/
theorem replay_retelling_unbalanced :
    let events : List Event :=
      [.endElement ⟨none, "", "x:a"⟩, .moveTo ⟨2, 3⟩, .startElement ⟨some "urn:h", "p", "h:p"⟩ ⟨[]⟩,
        .report .error ⟨"reason", ⟨2, 3⟩⟩, .startElement ⟨none, "b", "b"⟩ ⟨[⟨"k", "v"⟩]⟩]
    let told : List Event :=
      [.startDocument, .moveTo ⟨1, 1⟩, .endElement ⟨some log4jSpace, "x:a", "x:a"⟩,
        .moveTo ⟨2, 3⟩, .startElement ⟨some log4jSpace, "b", "b"⟩ ⟨[⟨"k", "v"⟩]⟩, .endDocument]
    (∀ d, Event.report .fatal d ∉ events) ∧
      ReadSettings.standard.allows (some log4jSpace) = true ∧
      ((ofSettings .standard).handleAll events).replay = .ok told ∧
      ((ofSettings .standard).handleAll told).replay = .ok told := by
  intro events told
  have hfatal : ∀ d, Event.report .fatal d ∉ events := by
    intro d
    simp [events]
  have hallows : ReadSettings.standard.allows (some log4jSpace) = true := by decide
  have htold : retelling .standard events = told := by decide
  obtain ⟨hreplay, -, hagain⟩ := replay_retelling .standard events hfatal
  rw [htold] at hreplay hagain
  exact ⟨hfatal, hallows, hreplay, hagain .standard hallows⟩

end Recording

end DocRules
