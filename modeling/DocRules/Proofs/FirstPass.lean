import DocRules.Recording

/-! # What the first pass keeps of the reports

A recording logs every report in order and remembers the first fatal one. Elements do not touch
either. -/

namespace DocRules

/-- The log items of the reports, in order. -/
def reportItems (events : List Event) : List LogItem :=
  events.filterMap fun
    | .report level d => some (.ofReport level d)
    | _ => none

def fatalReports (events : List Event) : List Diagnostic :=
  events.filterMap fun
    | .report .fatal d => some d
    | _ => none

theorem mem_fatalReports {events : List Event} {d : Diagnostic} :
    d ∈ fatalReports events ↔ Event.report .fatal d ∈ events := by
  rw [fatalReports, List.mem_filterMap]
  constructor
  · rintro ⟨e, he, hd⟩
    split at hd
    · obtain rfl := Option.some.inj hd
      exact he
    · contradiction
  · intro h
    exact ⟨_, h, rfl⟩

theorem head?_fatalReports_eq_none {events : List Event} :
    (fatalReports events).head? = none ↔ ∀ d, Event.report .fatal d ∉ events := by
  rw [List.head?_eq_none_iff, List.eq_nil_iff_forall_not_mem]
  exact forall_congr' fun d => not_congr mem_fatalReports

namespace Recording

theorem keep_log (r : Recording) (space : Option String) (e : Recorded) :
    (r.keep space e).log = r.log := by
  unfold keep
  split <;> rfl

theorem keep_fatal (r : Recording) (space : Option String) (e : Recorded) :
    (r.keep space e).fatal = r.fatal := by
  unfold keep
  split <;> rfl

theorem handle_log (r : Recording) (e : Event) :
    (r.handle e).log = r.log ++ reportItems [e] := by
  cases e with
  | startElement name attributes => simp [handle, keep_log, reportItems]
  | endElement name => simp [handle, keep_log, reportItems]
  | _ => simp [handle, reportItems]

theorem handle_fatal (r : Recording) (e : Event) :
    (r.handle e).fatal = r.fatal.or (fatalReports [e]).head? := by
  cases e with
  | startElement name attributes => simp [handle, keep_fatal, fatalReports]
  | endElement name => simp [handle, keep_fatal, fatalReports]
  | report level d => cases level <;> simp [handle, fatalReports]
  | _ => simp [handle, fatalReports]

theorem handleAll_log (r : Recording) (events : List Event) :
    (r.handleAll events).log = r.log ++ reportItems events := by
  induction events generalizing r with
  | nil => simp [handleAll, reportItems]
  | cons e events ih =>
    have hcons : reportItems (e :: events) = reportItems [e] ++ reportItems events :=
      List.filterMap_append (l := [e])
    rw [handleAll, List.foldl_cons, ← handleAll, ih, handle_log, List.append_assoc, ← hcons]

theorem handleAll_fatal (r : Recording) (events : List Event) :
    (r.handleAll events).fatal = r.fatal.or (fatalReports events).head? := by
  induction events generalizing r with
  | nil => simp [handleAll, fatalReports]
  | cons e events ih =>
    have hcons : fatalReports (e :: events) = fatalReports [e] ++ fatalReports events :=
      List.filterMap_append (l := [e])
    rw [handleAll, List.foldl_cons, ← handleAll, ih, handle_fatal, Option.or_assoc,
      ← List.head?_append, ← hcons]

end Recording

end DocRules
