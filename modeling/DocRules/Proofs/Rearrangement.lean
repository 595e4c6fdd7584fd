import DocRules.Proofs.Resolution

/-! # Registering in another order

The order of registrations that have different keys counts for one thing only: of the keys that are
equally good for a path the first one wins. Where a single key is the best, a path resolves to the
same actions as long as each key keeps the order of its own registrations; where several keys are,
each of them wins under some order. -/

namespace DocRules

namespace RuleBook

variable {ι : Type} {registrations first second : List (Path × ι)} {path key other : Path}

/-- The registrations come in another order, but those of one key in the same order as before. -/
structure Rearranges (first second : List (Path × ι)) : Prop where
  perm : first.Perm second
  ofKey : ∀ key, first.filter (·.1 = key) = second.filter (·.1 = key)

namespace Rearranges

theorem symm (h : Rearranges first second) : Rearranges second first :=
  ⟨h.perm.symm, fun key => (h.ofKey key).symm⟩

theorem mem_keys (h : Rearranges first second) (key : Path) :
    key ∈ first.map (·.1) ↔ key ∈ second.map (·.1) :=
  (h.perm.map (·.1)).mem_iff

theorem registeredUnder_eq (h : Rearranges first second) (key : Path) :
    registeredUnder first key = registeredUnder second key := by
  simp only [registeredUnder, h.ofKey key]

end Rearranges

/-! ## The best keys -/

theorem endsLike_iff : EndsLike path key ↔ key.isTailKey = true ∧ 0 < sharedWith path key := by
  rw [Path.isTailKey_iff, sharedWith, ← Path.tailMatch_eq_commonTail]
  constructor
  · intro h
    exact ⟨⟨h.starts, h.long⟩, (Path.tailMatch_rest_pos h.long).2 h.ends⟩
  · intro h
    obtain ⟨⟨hstarts, hlong⟩, hshares⟩ := h
    exact ⟨hstarts, hlong, (Path.tailMatch_rest_pos hlong).1 hshares⟩

/-- No registered tail key shares more segments with the path, and none of those that share as many is
shorter. -/
structure Best (registrations : List (Path × ι)) (path key : Path) : Prop where
  registered : key ∈ registrations.map (·.1)
  isTailKey : key.isTailKey = true
  shares : 0 < sharedWith path key
  most : ∀ other ∈ registrations.map (·.1), other.isTailKey = true →
    sharedWith path other ≤ sharedWith path key
  shortest : ∀ other ∈ registrations.map (·.1), other.isTailKey = true →
    sharedWith path other = sharedWith path key → key.length ≤ other.length

namespace Best

theorem endsLike (h : Best registrations path key) : EndsLike path key :=
  endsLike_iff.2 ⟨h.isTailKey, h.shares⟩

theorem sharedWith_eq (h : Best registrations path key) (h' : Best registrations path other) :
    sharedWith path key = sharedWith path other :=
  Nat.le_antisymm (h'.most key h.registered h.isTailKey) (h.most other h'.registered h'.isTailKey)

theorem length_eq (h : Best registrations path key) (h' : Best registrations path other) :
    key.length = other.length := by
  have hshared := h.sharedWith_eq h'
  exact Nat.le_antisymm (h.shortest other h'.registered h'.isTailKey hshared.symm)
    (h'.shortest key h.registered h.isTailKey hshared)

theorem rearranged (h : Best first path key) (hr : Rearranges first second) :
    Best second path key where
  registered := (hr.mem_keys key).1 h.registered
  isTailKey := h.isTailKey
  shares := h.shares
  most := by
    intro other ho
    exact h.most other ((hr.mem_keys other).2 ho)
  shortest := by
    intro other ho
    exact h.shortest other ((hr.mem_keys other).2 ho)

/-- A key that is among the best wins where it was registered before all others. -/
theorem wins (h : Best registrations path key)
    (hf : ∀ other ∈ registrations.map (·.1), other ≠ key →
      (registrations.map (·.1)).idxOf key < (registrations.map (·.1)).idxOf other) :
    Wins registrations path key where
  registered := h.registered
  endsLike := h.endsLike
  outranks := by
    intro other ho he hne
    have hmost := h.most other ho (endsLike_iff.1 he).1
    have hshortest := h.shortest other ho (endsLike_iff.1 he).1
    have hfirst := hf other ho hne
    unfold Outranks
    omega

end Best

/-- The winner is among the best keys. -/
theorem Wins.best (h : Wins registrations path key) : Best registrations path key := by
  obtain ⟨htail, hpos⟩ := endsLike_iff.1 h.endsLike
  have hother : ∀ other ∈ registrations.map (·.1), other.isTailKey = true →
      sharedWith path other < sharedWith path key ∨
        sharedWith path other = sharedWith path key ∧ key.length ≤ other.length := by
    intro other ho ht
    by_cases hne : other = key
    · exact .inr ⟨by rw [hne], by rw [hne]⟩
    · rcases Nat.eq_zero_or_pos (sharedWith path other) with hzero | hshares
      · exact .inl (by omega)
      · have hout := h.outranks other ho (endsLike_iff.2 ⟨ht, hshares⟩) hne
        unfold Outranks at hout
        omega
  refine ⟨h.registered, htail, hpos, ?_, ?_⟩
  · intro other ho ht
    have := hother other ho ht
    omega
  · intro other ho ht he
    have := hother other ho ht
    omega

/-- Two keys of equal length are the best ones for the path. -/
def Tied (registrations : List (Path × ι)) (path : Path) : Prop :=
  ∃ key other, key ≠ other ∧ key.length = other.length ∧
    Best registrations path key ∧ Best registrations path other

/-- The winner is the same under both orders, or they choose between keys that are tied. -/
theorem Wins.rearranged (h : Wins first path key) (h' : Wins second path other)
    (hr : Rearranges first second) : key = other ∨ Tied first path := by
  by_cases he : key = other
  · exact .inl he
  · have hkey := h.best
    have hother := h'.best.rearranged hr.symm
    exact .inr ⟨key, other, he, hkey.length_eq hother, hkey, hother⟩

/-! ## Registering a key first -/

/-- The registrations of one key, and after them all others. -/
def inFront (registrations : List (Path × ι)) (key : Path) : List (Path × ι) :=
  registrations.filter (·.1 = key) ++ registrations.filter (¬ ·.1 = key)

theorem rearranges_inFront (registrations : List (Path × ι)) (key : Path) :
    Rearranges registrations (inFront registrations key) where
  perm := by
    have hperm := List.filter_append_perm (fun r : Path × ι => decide (r.1 = key)) registrations
    simpa [inFront] using hperm.symm
  ofKey := by
    intro other
    rw [inFront, List.filter_append, List.filter_filter, List.filter_filter]
    by_cases he : other = key
    · subst he
      simp
    · have hnone : registrations.filter (fun r => decide (r.1 = other) && decide (r.1 = key)) = [] := by
        rw [List.filter_eq_nil_iff]
        intro r _ hr
        simp only [Bool.and_eq_true, decide_eq_true_eq] at hr
        exact he (hr.1.symm.trans hr.2)
      rw [hnone, List.nil_append]
      refine List.filter_congr ?_
      intro r _
      by_cases hr : r.1 = other
      · simp [hr, he]
      · simp [hr]

theorem idxOf_inFront (h : key ∈ registrations.map (·.1)) (hne : other ≠ key) :
    ((inFront registrations key).map (·.1)).idxOf key <
      ((inFront registrations key).map (·.1)).idxOf other := by
  obtain ⟨r, hr, rfl⟩ := List.mem_map.1 h
  have hmem : r ∈ registrations.filter (·.1 = r.1) := List.mem_filter.2 ⟨hr, by simp⟩
  cases hfront : registrations.filter (·.1 = r.1) with
  | nil =>
    rw [hfront] at hmem
    contradiction
  | cons s front =>
    have hs : s.1 = r.1 := by
      have hin : s ∈ registrations.filter (·.1 = r.1) := hfront ▸ List.mem_cons_self
      simpa using (List.mem_filter.1 hin).2
    rw [inFront, hfront, List.cons_append, List.map_cons, hs, List.idxOf_cons_self,
      List.idxOf_cons_ne _ (Ne.symm hne)]
    exact Nat.succ_pos _

/-- Every best key wins under some order. -/
theorem Best.exists_rearranges (h : Best registrations path key)
    (hp : path ∉ registrations.map (·.1)) :
    ∃ other, Rearranges registrations other ∧
      (ofList other).actionsAt? path = some (registeredUnder registrations key) := by
  have hr := rearranges_inFront registrations key
  have hbest := h.rearranged hr
  have hwins := hbest.wins fun other _ hne => idxOf_inFront h.registered hne
  obtain ⟨winner, hw, ha⟩ := (holds_ofList (inFront registrations key)).actionsAt?_wins
    (mt (hr.mem_keys path).2 hp) ⟨key, hbest.registered, hbest.endsLike⟩
  refine ⟨_, hr, ?_⟩
  rw [ha, hwins.unique hw, ← hr.registeredUnder_eq]

/-- In another order the registrations resolve a path to the same actions, if those of each key keep
their order, unless the path is no key and two keys are tied for it. The exception cannot be made
smaller: whichever of the tied keys one takes, under some order the path resolves to its actions. -/
theorem actionsAt?_rearranged (registrations : List (Path × ι)) (path : Path) :
    (∀ other, Rearranges registrations other →
      (ofList other).actionsAt? path = (ofList registrations).actionsAt? path ∨
        path ∉ registrations.map (·.1) ∧ Tied registrations path) ∧
    (path ∉ registrations.map (·.1) → ∀ key, Best registrations path key →
      ∃ other, Rearranges registrations other ∧
        (ofList other).actionsAt? path = some (registeredUnder registrations key)) := by
  refine ⟨?_, fun hp key hbest => hbest.exists_rearranges hp⟩
  intro other hr
  have hone := holds_ofList registrations
  have htwo := holds_ofList other
  by_cases hp : path ∈ registrations.map (·.1)
  · left
    rw [hone.actionsAt?_registered hp, htwo.actionsAt?_registered ((hr.mem_keys path).1 hp),
      hr.registeredUnder_eq]
  · have hp' : path ∉ other.map (·.1) := mt (hr.mem_keys path).2 hp
    by_cases hc : ∃ key ∈ registrations.map (·.1), EndsLike path key
    · obtain ⟨key, hk, he⟩ := hc
      obtain ⟨winner, hw, ha⟩ := hone.actionsAt?_wins hp ⟨key, hk, he⟩
      obtain ⟨winner', hw', ha'⟩ := htwo.actionsAt?_wins hp' ⟨key, (hr.mem_keys key).1 hk, he⟩
      rcases hw.rearranged hw' hr with rfl | htied
      · left
        rw [ha, ha', hr.registeredUnder_eq]
      · exact .inr ⟨hp, htied⟩
    · have hc' : ¬ ∃ key ∈ other.map (·.1), EndsLike path key := by
        rintro ⟨key, hk, he⟩
        exact hc ⟨key, (hr.mem_keys key).2 hk, he⟩
      left
      rw [hone.actionsAt?_eq_none.2 ⟨hp, hc⟩, htwo.actionsAt?_eq_none.2 ⟨hp', hc'⟩]

/-- The key that shares two segments with one path wins in either order; of the two keys that share
one with the other path either can win. -/
theorem actionsAt?_rearranged_pair :
    let key : Path := ⟨["*", "a", "b"]⟩
    let other : Path := ⟨["*", "c", "b"]⟩
    let registrations := [(key, 0), (other, 1), (key, 2)]
    let swapped := [(other, 1), (key, 0), (key, 2)]
    Rearranges registrations swapped ∧ ¬ Tied registrations ⟨["a", "b"]⟩ ∧
      (ofList swapped).actionsAt? ⟨["a", "b"]⟩ = (ofList registrations).actionsAt? ⟨["a", "b"]⟩ ∧
      ⟨["d", "b"]⟩ ∉ registrations.map (·.1) ∧ Best registrations ⟨["d", "b"]⟩ other ∧
      ∃ third, Rearranges registrations third ∧
        (ofList third).actionsAt? ⟨["d", "b"]⟩ = some [1] := by
  intro key other registrations swapped
  have hr : Rearranges registrations swapped := by
    refine ⟨List.Perm.swap _ _ _, ?_⟩
    intro k
    by_cases hk : k = key
    · subst hk
      decide
    · by_cases ho : k = other
      · subst ho
        decide
      · simp [registrations, swapped, Ne.symm hk, Ne.symm ho]
  have hbest : ∀ k, Best registrations ⟨["a", "b"]⟩ k → k = key := by
    intro k hk
    have hmost := hk.most key (by simp [registrations]) (by decide)
    have hmem := hk.registered
    simp only [registrations, List.map_cons, List.map_nil, List.mem_cons, List.not_mem_nil,
      or_false] at hmem
    rcases hmem with rfl | rfl | rfl
    · rfl
    · exact absurd hmost (by decide)
    · rfl
  have htied : ¬ Tied registrations ⟨["a", "b"]⟩ := by
    rintro ⟨first, second, hne, -, hf, hs⟩
    exact hne ((hbest first hf).trans (hbest second hs).symm)
  have hunregistered : (⟨["d", "b"]⟩ : Path) ∉ registrations.map (·.1) := by decide
  have hother : Best registrations ⟨["d", "b"]⟩ other := by
    exact ⟨by decide, by decide, by decide, by decide, by decide⟩
  refine ⟨hr, htied, ?_, hunregistered, hother, ?_⟩
  · have h := (actionsAt?_rearranged registrations ⟨["a", "b"]⟩).1 swapped hr
    exact h.resolve_right fun h => htied h.2
  · exact (actionsAt?_rearranged registrations ⟨["d", "b"]⟩).2 hunregistered other hother

end RuleBook

end DocRules
