import DocRules.Proofs.CompleteStart

/-! # Finishing

At the end of a document every action of the rules is finished once, under however many keys it is
registered. The fallbacks are finished after them, one after the other as they are listed, so an
action is finished again for every place that it has among them. -/

namespace DocRules

variable {ι α : Type}

def Call.finished? : Call ι α → Option ι
  | .finish a _ => some a
  | .applies .. | .start .. | .stop .. => none

namespace Dispatcher

variable (behaviour : ι → Behaviour α)

theorem finished_runFinishes (w : Workspace α) (actions : List ι) :
    (runFinishes behaviour w actions).2.filterMap Call.finished? = actions := by
  induction actions generalizing w with
  | nil => rfl
  | cons a actions ih => exact congrArg (a :: ·) (ih _)

variable [DecidableEq ι]

theorem finished_endDocument (d : Dispatcher ι α) :
    (d.endDocument behaviour).2.filterMap Call.finished? =
      d.rules.distinctActions ++ d.fallbacks :=
  finished_runFinishes behaviour d.workspace _

/-- An action is finished once if some key has it, and again for every place that it has among the
fallbacks. -/
theorem count_finished (d : Dispatcher ι α) {registrations : List (Path × ι)}
    (hd : d.rules.Holds registrations) (a : ι) :
    ((d.endDocument behaviour).2.filterMap Call.finished?).count a =
      (if a ∈ registrations.map (·.2) then 1 else 0) + d.fallbacks.count a := by
  have hn : d.rules.distinctActions.Nodup := nodup_eraseDups _
  rw [finished_endDocument, List.count_append, hn.count]
  simp only [hd.mem_distinctActions]

/-- In every state, an action is finished once for all the keys that have it and once for each of its
places among the fallbacks. So every registered action is finished just once, and no other one is,
if and only if the fallbacks are distinct and no key has one of them. -/
theorem finished_once_iff (d : Dispatcher ι α) (registrations : List (Path × ι)) :
    let e := { d with rules := .ofList registrations }
    let finished := (e.endDocument behaviour).2.filterMap Call.finished?
    (∀ a, finished.count a =
      (if a ∈ registrations.map (·.2) then 1 else 0) + d.fallbacks.count a) ∧
    ((∀ a, finished.count a =
        if a ∈ registrations.map (·.2) ∨ a ∈ d.fallbacks then 1 else 0) ↔
      d.fallbacks.Nodup ∧ ∀ a ∈ d.fallbacks, a ∉ registrations.map (·.2)) := by
  intro e finished
  have hcount : ∀ a, finished.count a =
      (if a ∈ registrations.map (·.2) then 1 else 0) + d.fallbacks.count a :=
    count_finished behaviour e (RuleBook.holds_ofList registrations)
  refine ⟨hcount, ?_⟩
  constructor
  · intro h
    refine ⟨List.nodup_iff_count.2 fun a => ?_, fun a ha hr => ?_⟩
    · have ht := h a
      rw [hcount] at ht
      split at ht <;> split at ht <;> omega
    · have ht := h a
      have hp := List.count_pos_iff.2 ha
      rw [hcount, if_pos hr, if_pos (Or.inl hr)] at ht
      omega
  · rintro ⟨hn, hd⟩ a
    rw [hcount, hn.count]
    by_cases ha : a ∈ d.fallbacks
    · rw [if_neg (hd a ha), if_pos ha, if_pos (Or.inr ha)]
    · rw [if_neg ha, Nat.add_zero]
      simp only [ha, or_false]

/-- An action that is both registered for a key and a fallback is finished twice. -/
theorem shared_action_finishes_twice :
    ((Dispatcher.endDocument (fun _ => compliant)
      (ofRules (.ofList [(⟨["cfg"]⟩, ())]) [()] (.empty : Workspace Nat))).2.filterMap
        Call.finished?).count () = 2 := by
  rw [count_finished (fun _ => compliant) _ (RuleBook.holds_ofList [(⟨["cfg"]⟩, ())])]
  rfl

end Dispatcher

end DocRules
