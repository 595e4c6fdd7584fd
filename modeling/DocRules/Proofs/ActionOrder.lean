import DocRules.Proofs.Registration

/-! # The order of the distinct actions

A book lists its actions key by key. So one action comes before another if it has a registration
that no registration of the other precedes when first the keys are compared, by where they were
registered first, and then the registrations of one key. Where a key is registered again after
another one this is not the order of the first registrations of the actions. -/

namespace DocRules

variable {ι : Type} [DecidableEq ι]

/-- The number of registrations before the first one of a key. -/
def keyPlace (registrations : List (Path × ι)) (key : Path) : Nat :=
  (registrations.map (·.1)).idxOf key

/-- The number of registrations before the first one of an action. -/
def actionPlace (registrations : List (Path × ι)) (action : ι) : Nat :=
  (registrations.map (·.2)).idxOf action

/-- Under some key `a` is registered, and every key of `b` was registered first after that one, or
is the same one with `a` registered under it first. -/
def ListedBefore (registrations : List (Path × ι)) (a b : ι) : Prop :=
  ∃ key, (key, a) ∈ registrations ∧ ∀ other, (other, b) ∈ registrations →
    keyPlace registrations key < keyPlace registrations other ∨
      other = key ∧ registrations.idxOf (key, a) < registrations.idxOf (key, b)

/-- No key is registered again after another one: the keys come in the order of their first
registrations. -/
def KeyByKey (registrations : List (Path × ι)) : Prop :=
  registrations.Pairwise fun r s =>
    keyPlace registrations r.1 ≤ keyPlace registrations s.1

/-! ## First places -/

theorem idxOf_le_of_getElem {α : Type} [BEq α] [LawfulBEq α] {xs : List α} {x : α} {i : Nat}
    (hi : i < xs.length) (hx : xs[i] = x) : xs.idxOf x ≤ i := by
  apply Nat.le_of_not_lt
  intro hlt
  have hne := List.not_of_lt_findIdx hlt
  rw [hx, beq_self_eq_true] at hne
  contradiction

/-- Of two elements of joined lists the one comes first that is in an earlier list, or earlier in
the same one. -/
theorem exists_of_idxOf_flatMap_lt {κ α : Type} [DecidableEq κ] [DecidableEq α] {f : κ → List α}
    {keys : List κ} {a b : α} (h : (keys.flatMap f).idxOf a < (keys.flatMap f).idxOf b) :
    ∃ k ∈ keys, a ∈ f k ∧ ∀ l ∈ keys, b ∈ f l →
      keys.idxOf k < keys.idxOf l ∨ l = k ∧ (f k).idxOf a < (f k).idxOf b := by
  induction keys with
  | nil => simp at h
  | cons key keys ih =>
    rw [List.flatMap_cons] at h
    by_cases ha : a ∈ f key
    · refine ⟨key, List.mem_cons_self, ha, fun l _ hb => ?_⟩
      by_cases hl : l = key
      · subst hl
        rw [List.idxOf_append_of_mem ha, List.idxOf_append_of_mem hb] at h
        exact .inr ⟨rfl, h⟩
      · rw [List.idxOf_cons_self, List.idxOf_cons_ne _ (Ne.symm hl)]
        exact .inl (Nat.succ_pos _)
    · rw [List.idxOf_append_of_notMem ha] at h
      have hb : b ∉ f key := by
        intro hb
        have hlt := List.idxOf_lt_length_of_mem hb
        rw [List.idxOf_append_of_mem hb] at h
        omega
      rw [List.idxOf_append_of_notMem hb] at h
      obtain ⟨k, hk, hak, hall⟩ := ih (Nat.lt_of_add_lt_add_left h)
      refine ⟨k, List.mem_cons_of_mem _ hk, hak, fun l hl hbl => ?_⟩
      have hne : ∀ m, m = key → a ∉ f m ∧ b ∉ f m := by
        rintro m rfl
        exact ⟨ha, hb⟩
      have hkne : key ≠ k := fun he => (hne k he.symm).1 hak
      have hlne : key ≠ l := fun he => (hne l he.symm).2 hbl
      have hmem : l ∈ keys := (List.mem_cons.1 hl).resolve_left (Ne.symm hlne)
      rw [List.idxOf_cons_ne _ hkne, List.idxOf_cons_ne _ hlne]
      exact (hall l hmem hbl).imp_left Nat.succ_lt_succ

/-! ## Registrations -/

section Registrations

variable {registrations : List (Path × ι)} {key : Path} {a b : ι}

omit [DecidableEq ι] in
theorem mem_registeredUnder : a ∈ registeredUnder registrations key ↔ (key, a) ∈ registrations := by
  rw [registeredUnder, List.mem_map]
  constructor
  · rintro ⟨⟨k, x⟩, hr, rfl⟩
    obtain ⟨hm, hk⟩ := List.mem_filter.1 hr
    obtain rfl : k = key := of_decide_eq_true hk
    exact hm
  · intro hm
    exact ⟨(key, a), List.mem_filter.2 ⟨hm, decide_eq_true rfl⟩, rfl⟩

/-- What comes first under a key was registered under it first. -/
theorem idxOf_lt_of_registeredUnder
    (h : (registeredUnder registrations key).idxOf a <
      (registeredUnder registrations key).idxOf b) :
    registrations.idxOf (key, a) < registrations.idxOf (key, b) := by
  induction registrations with
  | nil => simp [registeredUnder] at h
  | cons r registrations ih =>
    obtain ⟨k, x⟩ := r
    by_cases hk : k = key
    · subst hk
      have hcons : registeredUnder ((k, x) :: registrations) k =
          x :: registeredUnder registrations k := by simp [registeredUnder]
      rw [hcons] at h
      by_cases hxa : x = a
      · subst hxa
        have hxb : (k, x) ≠ (k, b) := by
          rintro he
          rw [(Prod.mk.inj he).2] at h
          exact Nat.lt_irrefl _ h
        rw [List.idxOf_cons_self, List.idxOf_cons_ne _ hxb]
        exact Nat.succ_pos _
      · have hxb : x ≠ b := by
          rintro rfl
          rw [List.idxOf_cons_self] at h
          exact Nat.not_lt_zero _ h
        rw [List.idxOf_cons_ne _ hxa, List.idxOf_cons_ne _ hxb] at h
        rw [List.idxOf_cons_ne _ (by simp [hxa]), List.idxOf_cons_ne _ (by simp [hxb])]
        exact Nat.succ_lt_succ (ih (Nat.lt_of_succ_lt_succ h))
    · have hskip : registeredUnder ((k, x) :: registrations) key =
          registeredUnder registrations key := by simp [registeredUnder, hk]
      rw [hskip] at h
      rw [List.idxOf_cons_ne _ (by simp [hk]), List.idxOf_cons_ne _ (by simp [hk])]
      exact Nat.succ_lt_succ (ih h)

omit [DecidableEq ι] in
/-- Among the keys without repetitions, the earlier one is the one that was registered first. -/
theorem keyPlace_lt_of_idxOf_lt {other : Path} (ho : other ∈ registeredKeys registrations)
    (h : (registeredKeys registrations).idxOf key < (registeredKeys registrations).idxOf other) :
    keyPlace registrations key < keyPlace registrations other := by
  have hother := List.idxOf_lt_length_of_mem ho
  have hkey := Nat.lt_trans h hother
  have hpair : (registeredKeys registrations).Pairwise fun k l =>
      keyPlace registrations k < keyPlace registrations l := pairwise_idxOf_eraseDups _
  have hlt := List.pairwise_iff_getElem.1 hpair _ _ hkey hother h
  rwa [List.getElem_idxOf hkey, List.getElem_idxOf hother] at hlt

theorem exists_getElem_actionPlace (hb : b ∈ registrations.map (·.2)) :
    ∃ (hj : actionPlace registrations b < registrations.length),
      (registrations[actionPlace registrations b]).2 = b := by
  have hlt : actionPlace registrations b < (registrations.map (·.2)).length :=
    List.idxOf_lt_length_of_mem hb
  have hget : (registrations.map (·.2))[actionPlace registrations b] = b := List.getElem_idxOf hlt
  rw [List.getElem_map] at hget
  rw [List.length_map] at hlt
  exact ⟨hlt, hget⟩

theorem actionPlace_lt_of_listedBefore (hk : KeyByKey registrations)
    (hb : b ∈ registrations.map (·.2)) (h : ListedBefore registrations a b) :
    actionPlace registrations a < actionPlace registrations b := by
  obtain ⟨key, ha, hall⟩ := h
  obtain ⟨hj, hbj⟩ := exists_getElem_actionPlace hb
  generalize actionPlace registrations b = j at hj hbj ⊢
  have hi := List.idxOf_lt_length_of_mem ha
  have hai := List.getElem_idxOf hi
  have hr : registrations[j] = (registrations[j].1, b) := Prod.ext rfl hbj
  -- the chosen registration of `a` stands before the first one of `b`
  have hij : registrations.idxOf (key, a) < j := by
    rcases hall registrations[j].1 (hr ▸ List.getElem_mem hj) with hlt | ⟨he, hlt⟩
    · apply Nat.lt_of_not_le
      intro hle
      rcases Nat.lt_or_eq_of_le hle with hji | hji
      · have hp := List.pairwise_iff_getElem.1 hk _ _ hj hi hji
        rw [hai] at hp
        exact absurd hlt (Nat.not_lt.2 hp)
      · subst hji
        rw [hai] at hlt
        exact Nat.lt_irrefl _ hlt
    · rw [he] at hr
      have hle := idxOf_le_of_getElem hj hr
      omega
  refine Nat.lt_of_le_of_lt (idxOf_le_of_getElem (by simpa using hi) ?_) hij
  rw [List.getElem_map, hai]

end Registrations

namespace RuleBook

theorem Holds.distinctActions_eq {book : RuleBook ι} {registrations : List (Path × ι)}
    (h : book.Holds registrations) : book.distinctActions =
      ((registeredKeys registrations).flatMap (registeredUnder registrations)).eraseDups := by
  rw [distinctActions, h.rules, List.flatMap_map]
  rfl

theorem Holds.listedBefore_distinctActions {book : RuleBook ι}
    {registrations : List (Path × ι)} (h : book.Holds registrations) :
    book.distinctActions.Pairwise (ListedBefore registrations) := by
  rw [h.distinctActions_eq]
  refine (pairwise_idxOf_eraseDups _).imp fun {a b} hlt => ?_
  obtain ⟨key, hk, ha, hall⟩ := exists_of_idxOf_flatMap_lt hlt
  refine ⟨key, mem_registeredUnder.1 ha, fun other hb => ?_⟩
  have ho : other ∈ registeredKeys registrations :=
    List.mem_eraseDups.2 (List.mem_map.2 ⟨(other, b), hb, rfl⟩)
  rcases hall other ho (mem_registeredUnder.2 hb) with hkeys | ⟨rfl, hunder⟩
  · exact .inl (keyPlace_lt_of_idxOf_lt ho hkeys)
  · exact .inr ⟨rfl, idxOf_lt_of_registeredUnder hunder⟩

/-- The distinct actions are the registered ones, each once. They come in the order of the first
registrations of their keys, and under one key in the order of their own. If no key was registered
again after another one, this is the order of the first registrations of the actions. -/
theorem distinctActions_ofList (registrations : List (Path × ι)) :
    let listed := (ofList registrations).distinctActions
    (∀ a, a ∈ listed ↔ a ∈ registrations.map (·.2)) ∧ listed.Nodup ∧
      listed.Pairwise (ListedBefore registrations) ∧
      (KeyByKey registrations →
        listed.Pairwise fun a b => actionPlace registrations a < actionPlace registrations b) := by
  intro listed
  have hbook := holds_ofList registrations
  have hmem : ∀ a, a ∈ listed ↔ a ∈ registrations.map (·.2) := fun a => hbook.mem_distinctActions
  have hbefore : listed.Pairwise (ListedBefore registrations) := hbook.listedBefore_distinctActions
  refine ⟨hmem, nodup_eraseDups _, hbefore, fun hk => ?_⟩
  exact hbefore.imp_of_mem fun _ hb hlt => actionPlace_lt_of_listedBefore hk ((hmem _).1 hb) hlt

/-- An action that is registered last, but under the first key, is listed before one that was
registered earlier. -/
theorem late_action_listed_early :
    let registrations : List (Path × Nat) := [(⟨["a"]⟩, 0), (⟨["b"]⟩, 1), (⟨["a"]⟩, 2)]
    (ofList registrations).distinctActions = [0, 2, 1] ∧
      ¬ (ofList registrations).distinctActions.Pairwise fun a b =>
        actionPlace registrations a < actionPlace registrations b := by
  intro registrations
  have hlisted : (ofList registrations).distinctActions = [0, 2, 1] := by
    rw [(holds_ofList registrations).distinctActions_eq]
    decide
  refine ⟨hlisted, ?_⟩
  rw [hlisted]
  decide

end RuleBook

end DocRules
