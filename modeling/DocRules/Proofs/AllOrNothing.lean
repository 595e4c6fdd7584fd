import DocRules.Session
import DocRules.Proofs.FirstPass

/-! # A document is run as a whole or not at all

The first pass decides. If it reports something fatal, no action is called, and the workspace has
new properties and log items only. Otherwise the second pass begins with that same workspace, and
nothing can stop it. -/

namespace DocRules

namespace Session

variable {ι α : Type}

def firstPass (s : Session ι α) (text : String) : List Event :=
  Markup.readDocument s.settings.reading.trim text

/-- The workspace of the session with more log items, and with the properties of the settings in
front of its own. -/
structure Seeded (s : Session ι α) (items : List LogItem) (w : Workspace α) : Prop where
  stack : w.stack = s.workspace.stack
  objects : w.objects = s.workspace.objects
  position : w.position = s.workspace.position
  log : w.log = s.workspace.log ++ items
  properties : ∀ key,
    w.property? key = (s.settings.properties.get? key).or (s.workspace.property? key)

theorem seeded_prepared (s : Session ι α) (r : Recording) : s.Seeded r.log (s.prepared r) where
  stack := rfl
  objects := rfl
  position := rfl
  log := rfl
  properties := s.workspace.properties.get?_insertAll s.settings.properties

theorem Seeded.record {s : Session ι α} {items : List LogItem} {w : Workspace α}
    (h : s.Seeded items w) (item : LogItem) : s.Seeded (items ++ [item]) (w.record item) where
  stack := h.stack
  objects := h.objects
  position := h.position
  log := by
    rw [Workspace.record, h.log, List.append_assoc]
  properties := h.properties

/-- The run called nothing, and left the items and the last word about them in the log. -/
structure Abandons (s : Session ι α) (events : List Event) (run : Run ι α) : Prop where
  outcome : ∃ first, (fatalReports events).head? = some first ∧
    run.outcome = .error (.abandoned first run.session.workspace.log)
  calls : run.calls = []
  workspace : s.Seeded (reportItems events ++ [.ofMessage .error abandonMessage])
    run.session.workspace
  kept : run.session = { s with workspace := run.session.workspace }

/-- The run dispatched the recorded elements, beginning with the items in the log. -/
structure Completes [DecidableEq ι] (behaviour : ι → Behaviour α) (s : Session ι α)
    (text : String) (run : Run ι α) : Prop where
  outcome : run.outcome = .ok ()
  dispatched : ∃ recorded w, (s.record text).replay = .ok recorded ∧
    s.Seeded (reportItems (s.firstPass text)) w ∧
    (run.session.workspace, run.calls) =
      let r := (Dispatcher.ofRules s.rules s.fallbacks w).handleAll behaviour recorded
      (r.1.workspace, r.2)
  kept : run.session = { s with workspace := run.session.workspace }

theorem record_log (s : Session ι α) (text : String) :
    (s.record text).log = reportItems (s.firstPass text) :=
  (Recording.handleAll_log _ _).trans (List.nil_append _)

theorem record_fatal (s : Session ι α) (text : String) :
    (s.record text).fatal = (fatalReports (s.firstPass text)).head? :=
  (Recording.handleAll_fatal _ _).trans Option.none_or

variable [DecidableEq ι] (behaviour : ι → Behaviour α) (s : Session ι α)

/-! ## Texts -/

theorem abandons_of_fatal (text : String)
    (h : ∃ d, Event.report .fatal d ∈ s.firstPass text) :
    s.Abandons (s.firstPass text) (s.runText behaviour text) := by
  have hseeded := s.seeded_prepared (s.record text)
  rw [record_log] at hseeded
  cases hf : (fatalReports (s.firstPass text)).head? with
  | none =>
    obtain ⟨d, hd⟩ := h
    exact absurd hd (head?_fatalReports_eq_none.1 hf d)
  | some first =>
    have hreplay : (s.record text).replay = .error (.fatal first) := by
      rw [Recording.replay, record_fatal, hf]
    rw [runText, play, hreplay]
    exact ⟨⟨first, hf, rfl⟩, rfl, hseeded.record _, rfl⟩

theorem completes_of_no_fatal (text : String)
    (h : ∀ d, Event.report .fatal d ∉ s.firstPass text) :
    Completes behaviour s text (s.runText behaviour text) := by
  have hseeded := s.seeded_prepared (s.record text)
  rw [record_log] at hseeded
  have hfatal : (s.record text).fatal = none := by
    rw [record_fatal]
    exact head?_fatalReports_eq_none.2 h
  cases hreplay : (s.record text).replay with
  | error fault =>
    rw [Recording.replay, hfatal] at hreplay
    contradiction
  | ok recorded =>
    rw [runText, play, hreplay]
    exact ⟨rfl, ⟨recorded, _, hreplay, hseeded, rfl⟩, rfl⟩

theorem abandoned_iff_fatal (text : String) :
    (∃ first log, (s.runText behaviour text).outcome = .error (.abandoned first log)) ↔
      ∃ d, Event.report .fatal d ∈ s.firstPass text := by
  constructor
  · rintro ⟨first, log, ho⟩
    apply Classical.byContradiction
    intro hno
    have hdone := completes_of_no_fatal behaviour s text fun d hd => hno ⟨d, hd⟩
    rw [hdone.outcome] at ho
    contradiction
  · intro h
    obtain ⟨first, -, ho⟩ := (abandons_of_fatal behaviour s text h).outcome
    exact ⟨first, _, ho⟩

/-! ## Streams -/

theorem runStream_of_text {stream : Stream} {text : String}
    (h : stream.contents = .ok (Text.utf8 text.toList)) :
    s.runStream behaviour stream = s.runText behaviour text := by
  have htext : stream.text = .ok text := by
    rw [Stream.text, h]
    exact congrArg (Except.mapError _) (Text.decodeUtf8_eq_ok_iff.2 rfl)
  rw [runStream, htext]

theorem runStream_of_no_text {stream : Stream} {bytes : List UInt8}
    (h : stream.contents = .ok bytes) (hno : ∀ text : String, Text.utf8 text.toList ≠ bytes) :
    ∃ fault, s.runStream behaviour stream =
      s.refuse ⟨.error, "Could not decode xml file", some (SourceFault.utf8 fault).message, none⟩
        (.source (.utf8 fault)) := by
  cases hd : Text.decodeUtf8 bytes with
  | ok text => exact absurd (Text.decodeUtf8_eq_ok_iff.1 hd) (hno text)
  | error fault =>
    have htext : stream.text = .error (.utf8 fault) := by
      rw [Stream.text, h]
      exact congrArg (Except.mapError _) hd
    exact ⟨fault, by rw [runStream, htext]; rfl⟩

theorem runStream_of_failure {stream : Stream} {reason : String}
    (h : stream.contents = .error reason) :
    s.runStream behaviour stream =
      s.refuse ⟨.error, "I/O error occurred while parsing xml file",
        some (SourceFault.io reason).message, none⟩ (.io reason) := by
  have htext : stream.text = .error (.io reason) := by rw [Stream.text, h]
  rw [runStream, htext]
  rfl

/-- A text is dispatched as a whole if its first pass reports nothing fatal, and calls nothing
otherwise. Bytes are run as the text they encode. They are refused, with one more log item, if there
is none, and so is a stream that cannot be read. -/
theorem run_all_or_nothing :
    (∀ text,
      ((∃ first log, (s.runText behaviour text).outcome = .error (.abandoned first log)) ↔
        ∃ d, Event.report .fatal d ∈ s.firstPass text) ∧
      ((∃ d, Event.report .fatal d ∈ s.firstPass text) →
        s.Abandons (s.firstPass text) (s.runText behaviour text)) ∧
      ((∀ d, Event.report .fatal d ∉ s.firstPass text) →
        Completes behaviour s text (s.runText behaviour text))) ∧
    (∀ (stream : Stream) (bytes : List UInt8), stream.contents = .ok bytes →
      (∀ text : String, Text.utf8 text.toList = bytes →
        s.runStream behaviour stream = s.runText behaviour text) ∧
      ((∀ text : String, Text.utf8 text.toList ≠ bytes) →
        (s.runStream behaviour stream).calls = [] ∧
        ∃ fault cause item,
          (s.runStream behaviour stream).outcome = .error (.source (.utf8 fault)) ∧
          item = ⟨.error, "Could not decode xml file", some cause, none⟩ ∧
          (s.runStream behaviour stream).session =
            { s with workspace := { s.workspace with log := s.workspace.log ++ [item] } })) ∧
    ∀ (stream : Stream) (reason : String), stream.contents = .error reason →
      (s.runStream behaviour stream).calls = [] ∧
      ∃ cause item,
        (s.runStream behaviour stream).outcome = .error (.io reason) ∧
        item = ⟨.error, "I/O error occurred while parsing xml file", some cause, none⟩ ∧
        (s.runStream behaviour stream).session =
          { s with workspace := { s.workspace with log := s.workspace.log ++ [item] } } := by
  refine ⟨fun text => ⟨abandoned_iff_fatal behaviour s text, abandons_of_fatal behaviour s text,
    completes_of_no_fatal behaviour s text⟩, fun stream bytes hb => ⟨?_, fun hno => ?_⟩,
    fun stream reason hf => ?_⟩
  · rintro text rfl
    exact runStream_of_text behaviour s hb
  · obtain ⟨fault, hr⟩ := runStream_of_no_text behaviour s hb hno
    rw [hr]
    exact ⟨rfl, fault, _, _, rfl, rfl, rfl⟩
  · rw [runStream_of_failure behaviour s hf]
    exact ⟨rfl, _, _, rfl, rfl, rfl⟩

end Session

end DocRules
