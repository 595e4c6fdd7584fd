import DocRules.Proofs.Run

/-! # Nesting

The state of a dispatcher follows the elements that are open: one entry of selected actions for
every segment of the path, and an element at whose end to resume only among the open ones. -/

namespace DocRules

variable {ι α : Type}

namespace Path

@[simp]
theorem parent_push (p : Path) (segment : String) : (p.push segment).parent = p := by
  simp [push, parent]

@[simp]
theorem length_push (p : Path) (segment : String) : (p.push segment).length = p.length + 1 := by
  simp [push, length]

theorem length_parent (p : Path) : p.parent.length = p.length - 1 := by
  simp [parent, length]

/-- The elements of the first path enclose those of the second, or are the same. -/
def Encloses (p q : Path) : Prop := p.segments <+: q.segments

theorem Encloses.refl (p : Path) : p.Encloses p := List.prefix_rfl

theorem Encloses.push {p q : Path} (h : p.Encloses q) (segment : String) :
    p.Encloses (q.push segment) := h.trans (List.prefix_append _ _)

theorem Encloses.parent {p q : Path} (h : p.Encloses q) : p.parent.Encloses q :=
  (List.dropLast_prefix _).trans h

theorem Encloses.length_le {p q : Path} (h : p.Encloses q) : p.length ≤ q.length :=
  List.IsPrefix.length_le h

theorem Encloses.eq_of_length_le {p q : Path} (h : p.Encloses q) (hl : q.length ≤ p.length) :
    p = q := by
  have hs : p.segments = q.segments := List.IsPrefix.eq_of_length_le h hl
  cases p
  exact congrArg Path.mk hs

/-- A path that encloses another one and differs from it encloses the parent of that one. -/
theorem Encloses.of_ne {p q : Path} (h : p.Encloses q) (hn : p ≠ q) : p.Encloses q.parent := by
  have hlt : p.length < q.length := Nat.lt_of_not_le fun hl => hn (h.eq_of_length_le hl)
  refine List.prefix_of_prefix_length_le h (List.dropLast_prefix _) ?_
  have hp : q.parent.segments.length = q.segments.length - 1 := q.length_parent
  have hl : p.segments.length < q.segments.length := hlt
  change p.segments.length ≤ q.parent.segments.length
  omega

theorem Encloses.push_ne {p q : Path} (h : p.Encloses q) (segment : String) :
    p ≠ q.push segment := by
  rintro rfl
  have hl := h.length_le
  rw [length_push] at hl
  omega

end Path

namespace Dispatcher

structure WellNested (d : Dispatcher ι α) : Prop where
  length_selected : d.selected.length = d.path.length
  skip_encloses : ∀ s, d.skip = some s → s.Encloses d.path

theorem wellNested_ofRules (rules : RuleBook ι) (fallbacks : List ι) (w : Workspace α) :
    (ofRules rules fallbacks w).WellNested :=
  ⟨rfl, fun _ h => nomatch h⟩

theorem skipAfter_encloses {path s : Path} {flow : Flow} (h : skipAfter path flow = some s) :
    s.Encloses path := by
  cases flow with
  | proceed => cases h
  | skipChildren =>
    cases h
    exact .refl path
  | skipSiblings =>
    cases h
    exact (Path.Encloses.refl path).parent

theorem skipIn_encloses {path s : Path} {mode : Mode} (h : skipIn path mode = some s) :
    s.Encloses path := by
  cases mode with
  | active => cases h
  | suppressed =>
    cases h
    exact .refl path

namespace WellNested

variable {d : Dispatcher ι α}

theorem enter (h : d.WellNested) {tag : String} {actions? : Option (List ι)} {w : Workspace α}
    {skip : Option Path} (hs : ∀ s, skip = some s → s.Encloses (d.path.push tag)) :
    (d.enter tag actions? w skip).WellNested := by
  refine ⟨?_, hs⟩
  simp [Dispatcher.enter, h.length_selected]

theorem leave (h : d.WellNested) {w : Workspace α} {skip : Option Path}
    (hs : ∀ s, skip = some s → s.Encloses d.path.parent) : (d.leave w skip).WellNested := by
  refine ⟨?_, hs⟩
  simp [Dispatcher.leave, h.length_selected, Path.length_parent]

variable (behaviour : ι → Behaviour α)

theorem startElement (h : d.WellNested) (tag : String) (attributes : Attributes) :
    (d.startElement behaviour tag attributes).1.WellNested := by
  cases hr : resolve behaviour d.rules d.fallbacks (d.path.push tag) attributes d.workspace with
  | none =>
    rw [startElement_unmatched behaviour hr]
    exact h.enter fun s hs => (h.skip_encloses s hs).push tag
  | some actions =>
    cases hd : d.skip with
    | none =>
      rw [startElement_active behaviour hr hd]
      exact h.enter fun s hs => skipAfter_encloses hs
    | some skip =>
      rw [startElement_skipping behaviour hr hd]
      exact h.enter fun s hs => (h.skip_encloses s (hd.trans hs)).push tag

theorem stopElement (h : d.WellNested) (tag : String) :
    (d.stopElement behaviour tag).1.WellNested := by
  cases hs : d.selected with
  | nil =>
    rw [stopElement_unopened behaviour tag hs]
    exact ⟨h.length_selected, h.skip_encloses⟩
  | cons actions? outer =>
    cases hd : d.skip with
    | some skip =>
      by_cases hn : skip = d.path
      · subst hn
        rw [stopElement_resuming behaviour tag hs hd]
        exact h.leave fun s he => nomatch he
      · rw [stopElement_skipping behaviour tag hs hd hn]
        exact h.leave fun s he => Option.some.inj he ▸ (h.skip_encloses skip hd).of_ne hn
    | none =>
      cases actions? with
      | none =>
        rw [stopElement_unmatched behaviour tag hs hd]
        exact h.leave fun s he => nomatch he
      | some actions =>
        rw [stopElement_active behaviour tag hs hd]
        exact h.leave fun s he => skipIn_encloses he

theorem handle [DecidableEq ι] (h : d.WellNested) (e : Event) :
    (d.handle behaviour e).1.WellNested := by
  cases e with
  | startElement name attributes => exact h.startElement behaviour name.tag attributes
  | endElement name => exact h.stopElement behaviour name.tag
  | startDocument => exact h
  | endDocument => exact ⟨h.length_selected, h.skip_encloses⟩
  | moveTo p => exact ⟨h.length_selected, h.skip_encloses⟩
  | report level diagnostic => exact ⟨h.length_selected, h.skip_encloses⟩

theorem handleAll [DecidableEq ι] (h : d.WellNested) (events : List Event) :
    (d.handleAll behaviour events).1.WellNested := by
  induction events generalizing d with
  | nil => exact h
  | cons e events ih => exact ih (h.handle behaviour e)

end WellNested

end Dispatcher

end DocRules
