import DocRules.Proofs.Nesting

/-! # Histories of a dispatcher

Anything may happen to a dispatcher between two events: its fallbacks are replaced or extended, and
its workspace is changed at will. The events themselves come in any order, so an element may end
that never began. An element is told by the place of its start among the inputs. -/

namespace DocRules

/-- What may come to a dispatcher. -/
inductive Input (ι α : Type) where
  | event (e : Event)
  | setFallbacks (fallbacks : List ι)
  | addFallback (action : ι)
  | edit (change : Workspace α → Workspace α)

variable {ι α : Type}

/-! ## Elements told by their starts -/

/-- The elements that are open after the first inputs, innermost first. An end closes the innermost
one, whatever its name. -/
def openAfter (inputs : List (Input ι α)) : Nat → List Nat
  | 0 => []
  | n + 1 =>
    match inputs[n]? with
    | some (.event (.startElement _ _)) => n :: openAfter inputs n
    | some (.event (.endElement _)) => (openAfter inputs n).tail
    | _ => openAfter inputs n

/-- The input at `j` ends the element that the input at `i` began. -/
def Closes (inputs : List (Input ι α)) (i j : Nat) : Prop :=
  (∃ name, inputs[j]? = some (.event (.endElement name))) ∧ (openAfter inputs j).head? = some i

section Open

variable {inputs : List (Input ι α)}

theorem openAfter_start {n : Nat} {name : ElementName} {attributes : Attributes}
    (h : inputs[n]? = some (.event (.startElement name attributes))) :
    openAfter inputs (n + 1) = n :: openAfter inputs n := by
  rw [openAfter, h]

theorem openAfter_end {n : Nat} {name : ElementName}
    (h : inputs[n]? = some (.event (.endElement name))) :
    openAfter inputs (n + 1) = (openAfter inputs n).tail := by
  rw [openAfter, h]

/-- Places of starts that are open have been passed, and each is listed once. -/
theorem pairwise_openAfter (inputs : List (Input ι α)) (n : Nat) :
    (n :: openAfter inputs n).Pairwise (· > ·) := by
  induction n with
  | zero => simp [openAfter]
  | succ n ih =>
    have hs : ((n + 1) :: n :: openAfter inputs n).Pairwise (· > ·) := by
      refine List.pairwise_cons.2 ⟨fun i hi => ?_, ih⟩
      rcases List.mem_cons.1 hi with rfl | hi
      · exact Nat.lt_succ_self _
      · exact Nat.lt_succ_of_lt ((List.pairwise_cons.1 ih).1 i hi)
    have ht : ((n + 1) :: openAfter inputs n).Pairwise (· > ·) :=
      hs.sublist ((List.sublist_cons_self n _).cons_cons (n + 1))
    rw [openAfter]
    split
    · exact hs
    · exact ht.sublist ((List.tail_sublist _).cons_cons (n + 1))
    · exact ht

theorem lt_of_mem_openAfter {i n : Nat} (h : i ∈ openAfter inputs n) : i < n :=
  (List.pairwise_cons.1 (pairwise_openAfter inputs n)).1 i h

/-- An element that has begun and is not open any more does not open again. -/
theorem notMem_openAfter_of_le {i m n : Nat} (hi : i < m) (hm : i ∉ openAfter inputs m)
    (hn : m ≤ n) : i ∉ openAfter inputs n := by
  induction hn with
  | refl => exact hm
  | @step n hn ih =>
    rw [openAfter]
    split
    · exact List.not_mem_cons_of_ne_of_not_mem (Nat.ne_of_lt (Nat.lt_of_lt_of_le hi hn)) ih
    · exact fun h => ih (List.mem_of_mem_tail h)
    · exact ih

theorem Closes.lt {i j : Nat} (h : Closes inputs i j) : i < j :=
  lt_of_mem_openAfter (List.mem_of_mem_head? h.2)

theorem Closes.notMem {i j : Nat} (h : Closes inputs i j) : i ∉ openAfter inputs (j + 1) := by
  obtain ⟨⟨name, hj⟩, ho⟩ := h
  obtain ⟨outer, ho⟩ : ∃ outer, openAfter inputs j = i :: outer := by
    cases hl : openAfter inputs j with
    | nil => rw [hl] at ho; cases ho
    | cons k outer => rw [hl] at ho; cases ho; exact ⟨outer, rfl⟩
  have hp := (List.pairwise_cons.1 (pairwise_openAfter inputs j)).2
  rw [ho] at hp
  rw [openAfter_end hj, ho, List.tail_cons]
  exact fun hi => Nat.lt_irrefl i ((List.pairwise_cons.1 hp).1 i hi)

theorem Closes.le {i j k : Nat} (hj : Closes inputs i j) (hk : Closes inputs i k) : k ≤ j := by
  refine Nat.le_of_not_lt fun hlt => ?_
  have hn := notMem_openAfter_of_le (Nat.lt_succ_of_lt hj.lt) hj.notMem hlt
  exact hn (List.mem_of_mem_head? hk.2)

/-- An element ends once at most. -/
theorem Closes.unique {i j k : Nat} (hj : Closes inputs i j) (hk : Closes inputs i k) : k = j :=
  Nat.le_antisymm (hj.le hk) (hk.le hj)

end Open

namespace Dispatcher

variable [DecidableEq ι] (behaviour : ι → Behaviour α)

def accept (d : Dispatcher ι α) : Input ι α → Dispatcher ι α × List (Call ι α)
  | .event e => d.handle behaviour e
  | .setFallbacks fallbacks => ({ d with fallbacks }, [])
  | .addFallback a => ({ d with fallbacks := d.fallbacks ++ [a] }, [])
  | .edit change => ({ d with workspace := change d.workspace }, [])

def stateAt (d : Dispatcher ι α) (inputs : List (Input ι α)) : Nat → Dispatcher ι α
  | 0 => d
  | n + 1 =>
    match inputs[n]? with
    | some input => ((d.stateAt inputs n).accept behaviour input).1
    | none => d.stateAt inputs n

def callsAt (d : Dispatcher ι α) (inputs : List (Input ι α)) (n : Nat) : List (Call ι α) :=
  match inputs[n]? with
  | some input => ((d.stateAt behaviour inputs n).accept behaviour input).2
  | none => []

section At

variable (d : Dispatcher ι α) {inputs : List (Input ι α)} {n : Nat} {input : Input ι α}

theorem stateAt_succ (h : inputs[n]? = some input) :
    d.stateAt behaviour inputs (n + 1) =
      ((d.stateAt behaviour inputs n).accept behaviour input).1 := by
  rw [stateAt, h]

theorem callsAt_eq (h : inputs[n]? = some input) :
    d.callsAt behaviour inputs n =
      ((d.stateAt behaviour inputs n).accept behaviour input).2 := by
  rw [callsAt, h]

end At

/-- The actions selected for the element that the input at a place begins. -/
def selectedAt (d : Dispatcher ι α) (inputs : List (Input ι α)) (n : Nat) : Option (List ι) :=
  match inputs[n]? with
  | some (.event (.startElement name attributes)) =>
    let s := d.stateAt behaviour inputs n
    resolve behaviour s.rules s.fallbacks (s.path.push name.tag) attributes s.workspace
  | _ => none

/-- Every one of the actions was called for the start of an element, and proceeded. -/
structure StartedFully (actions : List ι) (calls : List (Call ι α)) : Prop where
  started : calls.filterMap Call.started? = actions
  proceeded : ∀ a tag attributes w, Call.start a tag attributes w ∈ calls →
    ((behaviour a).start w tag attributes).2 = .ok .proceed

end Dispatcher

end DocRules
