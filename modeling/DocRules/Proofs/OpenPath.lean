import DocRules.Proofs.CompleteStart

/-! # The state follows the open elements

Everything that a dispatcher remembers between two inputs is about elements that are open: its path
lists their tags, and the path at whose element's end it resumes is that of one of them, or of
none at all when siblings of the outermost elements are skipped. Remembered once, that path stays
until its element ends. -/

namespace DocRules

variable {ι α : Type}

/-! ## The path of an element -/

section Inputs

variable (inputs : List (Input ι α))

def tagAt (i : Nat) : String :=
  match inputs[i]? with
  | some (.event (.startElement name _)) => name.tag
  | _ => ""

/-- The tags of the elements that are open after the first inputs, outermost first. -/
def openPath (n : Nat) : Path := ⟨(openAfter inputs n).reverse.map (tagAt inputs)⟩

def elementPath (i : Nat) : Path := openPath inputs (i + 1)

/-- The input at a place ends the open element with this path. -/
def EndsElementAt (path : Path) (n : Nat) : Prop :=
  ∃ i, Closes inputs i n ∧ elementPath inputs i = path

end Inputs

section Open

variable {inputs : List (Input ι α)} {n : Nat}

theorem length_openPath : (openPath inputs n).length = (openAfter inputs n).length := by
  simp [openPath, Path.length]

theorem openPath_start {name : ElementName} {attributes : Attributes}
    (h : inputs[n]? = some (.event (.startElement name attributes))) :
    openPath inputs (n + 1) = (openPath inputs n).push name.tag := by
  have ht : tagAt inputs n = name.tag := by rw [tagAt, h]
  simp [openPath, openAfter_start h, Path.push, ht]

theorem openPath_end {name : ElementName} (h : inputs[n]? = some (.event (.endElement name))) :
    openPath inputs (n + 1) = (openPath inputs n).parent := by
  simp [openPath, openAfter_end h, Path.parent]

/-- The elements around an open element are those that were open when it began. -/
theorem openAfter_of_split {i : Nat} (inner : List Nat) {outer : List Nat}
    (h : openAfter inputs n = inner ++ i :: outer) : openAfter inputs (i + 1) = i :: outer := by
  induction n generalizing inner with
  | zero => simp [openAfter] at h
  | succ n ih =>
    rw [openAfter] at h
    split at h
    · rename_i name attributes hi
      cases inner with
      | nil =>
        obtain ⟨rfl, rfl⟩ := List.cons.inj h
        exact openAfter_start hi
      | cons k inner => exact ih inner (List.cons.inj h).2
    · cases hl : openAfter inputs n with
      | nil => simp [hl] at h
      | cons k rest =>
        rw [hl, List.tail_cons] at h
        refine ih (k :: inner) ?_
        rw [hl, h]
        rfl
    · exact ih inner h

theorem Closes.elementPath_eq {i : Nat} (h : Closes inputs i n) :
    elementPath inputs i = openPath inputs n := by
  obtain ⟨-, ho⟩ := h
  obtain ⟨outer, ho⟩ := List.head?_eq_some_iff.1 ho
  have hi : openAfter inputs (i + 1) = i :: outer := openAfter_of_split [] ho
  rw [elementPath, openPath, openPath, hi, ho]

/-- The element that ends is the innermost one, so its path lists all the open elements. -/
theorem endsElementAt_iff {path : Path} : EndsElementAt inputs path n ↔
    (∃ name, inputs[n]? = some (.event (.endElement name))) ∧ openAfter inputs n ≠ [] ∧
      path = openPath inputs n := by
  constructor
  · rintro ⟨i, hc, rfl⟩
    refine ⟨hc.1, ?_, hc.elementPath_eq⟩
    intro hn
    have ho := hc.2
    rw [hn] at ho
    cases ho
  · rintro ⟨he, hn, rfl⟩
    obtain ⟨i, outer, ho⟩ := List.exists_cons_of_ne_nil hn
    have hc : Closes inputs i n := ⟨he, by rw [ho]; rfl⟩
    exact ⟨i, hc, hc.elementPath_eq⟩

/-- No element has the empty path. -/
theorem not_endsElementAt_empty : ¬ EndsElementAt inputs .empty n := by
  intro h
  obtain ⟨-, hn, he⟩ := endsElementAt_iff.1 h
  refine hn (List.eq_nil_of_length_eq_zero ?_)
  rw [← length_openPath, ← he]
  rfl

end Open

namespace Dispatcher

/-! ## What one input does -/

section Step

variable (behaviour : ι → Behaviour α) {d : Dispatcher ι α}

theorem path_startElement (tag : String) (attributes : Attributes) :
    (d.startElement behaviour tag attributes).1.path = d.path.push tag := by
  obtain ⟨-, he⟩ | ⟨actions, skip, -, -, he⟩ | ⟨actions, -, -, he⟩ :=
    startElement_cases behaviour d tag attributes
  all_goals
    rw [he]
    rfl

theorem path_stopElement (h : d.selected ≠ []) (tag : String) :
    (d.stopElement behaviour tag).1.path = d.path.parent := by
  obtain ⟨hs, -⟩ | ⟨-, skip, -, he⟩ | ⟨-, -, he⟩ | ⟨actions, outer, -, -, he⟩ :=
    stopElement_cases behaviour d tag
  · exact absurd hs h
  all_goals
    rw [he]
    rfl

theorem skip_stopElement (tag : String) {skip : Path} (hk : d.skip = some skip) :
    (d.stopElement behaviour tag).1.skip =
      if d.selected ≠ [] ∧ skip = d.path then none else some skip := by
  obtain ⟨hs, he⟩ | ⟨hs, skip', hk', he⟩ | ⟨-, hn, -⟩ | ⟨actions, outer, -, hn, -⟩ :=
    stopElement_cases behaviour d tag
  · rw [he, if_neg fun h => h.1 hs]
    exact hk
  · obtain rfl := Option.some.inj (hk.symm.trans hk')
    rw [he]
    simp only [leave, ne_eq, hs, not_false_eq_true, true_and]
  all_goals
    rw [hn] at hk
    cases hk

end Step

/-! ## What all inputs come to -/

section Run

variable [DecidableEq ι] (behaviour : ι → Behaviour α)

/-- What ties the state after the first inputs, and what comes after it, to the open elements. -/
structure FollowsOpen (d : Dispatcher ι α) (inputs : List (Input ι α)) (n : Nat) : Prop where
  path_eq : (d.stateAt behaviour inputs n).path = openPath inputs n
  /-- An end with nothing open leaves everything as it is, but for one warning where it happened. -/
  stray_end : ∀ name, inputs[n]? = some (.event (.endElement name)) → openAfter inputs n = [] →
    d.stateAt behaviour inputs (n + 1) =
      { d.stateAt behaviour inputs n with
        workspace := (d.stateAt behaviour inputs n).workspace.record
          ⟨.warning, s!"end of element <{name.tag}> without a matching start", none,
            (d.stateAt behaviour inputs n).workspace.position⟩ }
  length_selected : (d.stateAt behaviour inputs n).selected.length =
    (d.stateAt behaviour inputs n).path.length
  skip_encloses : ∀ skip, (d.stateAt behaviour inputs n).skip = some skip →
    skip.Encloses (d.stateAt behaviour inputs n).path
  /-- A path that is remembered stays so as long as its element does not end. -/
  skip_kept : ∀ skip, (d.stateAt behaviour inputs n).skip = some skip → ∀ m, n ≤ m →
    (∀ k, n ≤ k → k < m → ¬ EndsElementAt inputs skip k) →
    (d.stateAt behaviour inputs m).skip = some skip
  /-- It is forgotten, and no other one remembered, when its element ends. -/
  skip_cleared : ∀ skip, (d.stateAt behaviour inputs n).skip = some skip →
    EndsElementAt inputs skip n → (d.stateAt behaviour inputs (n + 1)).skip = none
  skip_empty : (d.stateAt behaviour inputs n).skip = some .empty →
    ∀ m, n ≤ m → (d.stateAt behaviour inputs m).skip = some .empty

variable {behaviour} {d : Dispatcher ι α} {inputs : List (Input ι α)} {n : Nat}

/-- An input that is no tag of an element changes neither what is open nor what is remembered. -/
theorem start_or_end_or_other (behaviour : ι → Behaviour α) (d : Dispatcher ι α)
    (inputs : List (Input ι α)) (n : Nat) :
    (∃ name attributes, inputs[n]? = some (.event (.startElement name attributes))) ∨
      (∃ name, inputs[n]? = some (.event (.endElement name))) ∨
      (∀ name, inputs[n]? ≠ some (.event (.endElement name))) ∧
        openAfter inputs (n + 1) = openAfter inputs n ∧
        (d.stateAt behaviour inputs (n + 1)).path = (d.stateAt behaviour inputs n).path ∧
        (d.stateAt behaviour inputs (n + 1)).skip = (d.stateAt behaviour inputs n).skip := by
  rw [openAfter, stateAt]
  cases hi : inputs[n]? with
  | none => simp
  | some input =>
    cases input with
    | setFallbacks | addFallback | edit => simp [accept]
    | event e =>
      cases e with
      | startElement name attributes => exact .inl ⟨name, attributes, rfl⟩
      | endElement name => exact .inr (.inl ⟨name, rfl⟩)
      | startDocument | endDocument | moveTo | report => simp [accept, handle, endDocument]

theorem Tracked.selected_eq_nil (h : Tracked behaviour d inputs n) :
    (d.stateAt behaviour inputs n).selected = [] ↔ openAfter inputs n = [] := by
  rw [h.selected, List.map_eq_nil_iff]

theorem Tracked.path_succ (h : Tracked behaviour d inputs n)
    (hp : (d.stateAt behaviour inputs n).path = openPath inputs n) :
    (d.stateAt behaviour inputs (n + 1)).path = openPath inputs (n + 1) := by
  obtain ⟨name, attributes, hi⟩ | ⟨name, hi⟩ | ⟨-, ho, he, -⟩ :=
    start_or_end_or_other behaviour d inputs n
  · rw [openPath_start hi, ← hp, stateAt_succ behaviour d hi]
    exact path_startElement behaviour name.tag attributes
  · rw [openPath_end hi, ← hp, stateAt_succ behaviour d hi, accept, handle_endElement]
    by_cases hs : (d.stateAt behaviour inputs n).selected = []
    · have hz : (d.stateAt behaviour inputs n).path = .empty := by
        rw [hp, openPath, h.selected_eq_nil.1 hs]
        rfl
      rw [stopElement_unopened behaviour name.tag hs, hz]
      rfl
    · exact path_stopElement behaviour hs name.tag
  · rw [he, hp, openPath, openPath, ho]

theorem Tracked.skip_succ (h : Tracked behaviour d inputs n)
    (hp : (d.stateAt behaviour inputs n).path = openPath inputs n) {skip : Path}
    (hk : (d.stateAt behaviour inputs n).skip = some skip) :
    EndsElementAt inputs skip n ∧ (d.stateAt behaviour inputs (n + 1)).skip = none ∨
      ¬ EndsElementAt inputs skip n ∧ (d.stateAt behaviour inputs (n + 1)).skip = some skip := by
  rw [endsElementAt_iff]
  obtain ⟨name, attributes, hi⟩ | ⟨name, hi⟩ | ⟨hn, -, -, he⟩ :=
    start_or_end_or_other behaviour d inputs n
  · rw [stateAt_succ behaviour d hi]
    refine .inr ⟨by simp [hi], ?_⟩
    exact (startElement_effect behaviour _ name.tag attributes).2.1 skip hk
  · have hs := skip_stopElement behaviour name.tag hk
    simp only [ne_eq, h.selected_eq_nil, hp] at hs
    rw [stateAt_succ behaviour d hi, accept, handle_endElement, hs]
    by_cases hc : openAfter inputs n ≠ [] ∧ skip = openPath inputs n
    · exact .inl ⟨⟨⟨name, hi⟩, hc⟩, if_pos hc⟩
    · exact .inr ⟨fun he => hc he.2, if_neg hc⟩
  · exact .inr ⟨fun h => h.1.elim hn, he.trans hk⟩

variable (behaviour)

section Reached

variable (rules : RuleBook ι) (fallbacks : List ι) (w : Workspace α)

theorem path_stateAt (inputs : List (Input ι α)) (n : Nat) :
    ((ofRules rules fallbacks w).stateAt behaviour inputs n).path = openPath inputs n := by
  induction n with
  | zero => rfl
  | succ n ih => exact (tracked behaviour rules fallbacks w inputs n).path_succ ih

theorem skip_stateAt (inputs : List (Input ι α)) {n m : Nat} {skip : Path} (hm : n ≤ m)
    (hk : ((ofRules rules fallbacks w).stateAt behaviour inputs n).skip = some skip)
    (hn : ∀ k, n ≤ k → k < m → ¬ EndsElementAt inputs skip k) :
    ((ofRules rules fallbacks w).stateAt behaviour inputs m).skip = some skip := by
  induction hm with
  | refl => exact hk
  | @step m hm ih =>
    have hs := ih fun k hnk hkm => hn k hnk (Nat.lt_succ_of_lt hkm)
    have hp := path_stateAt behaviour rules fallbacks w inputs m
    rcases (tracked behaviour rules fallbacks w inputs m).skip_succ hp hs with ⟨he, -⟩ | ⟨-, hs⟩
    · exact absurd he (hn m hm (Nat.lt_succ_self m))
    · exact hs

/-- Whatever comes to a dispatcher, its state follows the elements that are open. -/
theorem stateAt_followsOpen (inputs : List (Input ι α)) (n : Nat) :
    FollowsOpen behaviour (ofRules rules fallbacks w) inputs n := by
  have ht := tracked behaviour rules fallbacks w inputs n
  have hp := path_stateAt behaviour rules fallbacks w inputs n
  refine ⟨hp, ?_, ht.nested.length_selected, ht.nested.skip_encloses, ?_, ?_, ?_⟩
  · intro name hi ho
    rw [stateAt_succ behaviour _ hi]
    exact congrArg Prod.fst (stopElement_unopened behaviour name.tag (ht.selected_eq_nil.2 ho))
  · intro skip hk m hm hn
    exact skip_stateAt behaviour rules fallbacks w inputs hm hk hn
  · intro skip hk he
    exact (ht.skip_succ hp hk).elim And.right fun h => absurd he h.1
  · intro hk m hm
    refine skip_stateAt behaviour rules fallbacks w inputs hm hk ?_
    intro k _ _
    exact not_endsElementAt_empty

end Reached

end Run

end Dispatcher

end DocRules
