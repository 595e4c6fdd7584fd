import DocRules.Proofs.Registration
import DocRules.Proofs.TailMatch

/-! # What a path resolves to

A registered path resolves to its own actions. Any other path resolves to the actions of the winner
among the registered keys that end like it. The scan keeps the best rule so far and gives it up only
to a strictly better one, so of two equally good keys the earlier one stays. -/

namespace DocRules

namespace RuleBook

variable {ι : Type}

/-! ## The scan -/

namespace Candidate

/-- More shared segments win, then the shorter key. -/
def Beats (c d : Candidate ι) : Prop :=
  d.score < c.score ∨ c.score = d.score ∧ c.length < d.length

/-- The candidate is the first of the best ones. -/
def Leads (c : Candidate ι) (all : List (Candidate ι)) : Prop :=
  ∃ before after, all = before ++ c :: after ∧
    (∀ d ∈ before, c.Beats d) ∧ ∀ d ∈ after, ¬ d.Beats c

theorem better_of_beats {b next : Candidate ι} (h : next.Beats b) :
    better (some b) next = some next := by
  rw [better, if_pos]
  simpa [Beats] using h

theorem better_of_not_beats {b next : Candidate ι} (h : ¬ next.Beats b) :
    better (some b) next = some b := by
  rw [better, if_neg]
  simpa [Beats] using h

theorem Beats.trans {c d e : Candidate ι} (h : c.Beats d) (h' : d.Beats e) : c.Beats e := by
  unfold Beats at *
  omega

theorem Beats.of_not_beats {c d e : Candidate ι} (h : c.Beats d) (h' : ¬ e.Beats d) :
    c.Beats e := by
  unfold Beats at *
  omega

theorem leads_singleton (c : Candidate ι) : c.Leads [c] :=
  ⟨[], [], rfl, fun _ h => absurd h List.not_mem_nil, fun _ h => absurd h List.not_mem_nil⟩

/-- A later candidate that does not beat the leader changes nothing. -/
theorem Leads.keep {c next : Candidate ι} {all : List (Candidate ι)} (h : c.Leads all)
    (hn : ¬ next.Beats c) : c.Leads (all ++ [next]) := by
  obtain ⟨before, after, rfl, hbefore, hafter⟩ := h
  refine ⟨before, after ++ [next], by simp, hbefore, fun d hd => ?_⟩
  rcases List.mem_append.1 hd with hd | hd
  · exact hafter d hd
  · rwa [List.mem_singleton.1 hd]

/-- A later candidate that beats the leader beats all that came before. -/
theorem Leads.replace {c next : Candidate ι} {all : List (Candidate ι)} (h : c.Leads all)
    (hn : next.Beats c) : next.Leads (all ++ [next]) := by
  obtain ⟨before, after, rfl, hbefore, hafter⟩ := h
  refine ⟨before ++ c :: after, [], rfl, fun d hd => ?_, fun _ h => absurd h List.not_mem_nil⟩
  rcases List.mem_append.1 hd with hd | hd
  · exact hn.trans (hbefore d hd)
  · rcases List.mem_cons.1 hd with rfl | hd
    · exact hn
    · exact hn.of_not_beats (hafter d hd)

/-- What the scan keeps leads what it has seen, and it keeps nothing only if there was nothing. -/
theorem foldl_better (all : List (Candidate ι)) :
    (all.foldl better none = none ∧ all = []) ∨
      ∃ c, all.foldl better none = some c ∧ c.Leads all := by
  induction all using List.reverseRecOn with
  | nil => exact Or.inl ⟨rfl, rfl⟩
  | append_singleton all next ih =>
    rw [List.foldl_append, List.foldl_cons, List.foldl_nil]
    rcases ih with ⟨hnone, rfl⟩ | ⟨c, hc, hl⟩
    · exact Or.inr ⟨next, rfl, leads_singleton next⟩
    · rw [hc]
      by_cases hn : next.Beats c
      · exact Or.inr ⟨next, better_of_beats hn, hl.replace hn⟩
      · exact Or.inr ⟨c, better_of_not_beats hn, hl.keep hn⟩

end Candidate

theorem bestTail?_eq_foldl (book : RuleBook ι) (path : Path) :
    book.bestTail? path = (book.rules.toList.filterMap (candidate? path)).foldl better none := by
  rw [bestTail?, ← Array.foldl_toList, List.foldl_filterMap]
  congr 1
  funext best rule
  cases candidate? path rule <;> rfl

/-! ## Keys that compete -/

/-- The key matches by its tail and ends in the last segment of the path. -/
structure EndsLike (path key : Path) : Prop where
  starts : key.segments.head? = some Path.wildcard
  long : 2 ≤ key.length
  ends : key.last? = path.last?

/-- How many segments a path shares at its end with a key without its wildcard. -/
def sharedWith (path key : Path) : Nat := path.commonTail key.rest

/-- Every segment behind the wildcard is shared. -/
def MatchesInFull (path key : Path) : Prop := sharedWith path key = key.rest.length

/-- How a key competes for a path. -/
def contender (registrations : List (Path × ι)) (path key : Path) : Candidate ι :=
  ⟨sharedWith path key, key.rest.length, registeredUnder registrations key⟩

theorem candidate?_ruleOf {registrations : List (Path × ι)} {path key : Path} {c : Candidate ι} :
    candidate? path (ruleOf registrations key) = some c ↔
      EndsLike path key ∧ c = contender registrations path key := by
  rw [candidate?, ruleOf, Option.bind_eq_some_iff, contender, sharedWith,
    ← Path.tailMatch_eq_commonTail]
  constructor
  · rintro ⟨suffix, hs, hc⟩
    obtain ⟨hhead, hlong, rfl⟩ := Path.tailSuffix?_eq_some.1 hs
    dsimp only at hc
    split at hc
    · contradiction
    · rename_i hpos
      have hends := (Path.tailMatch_rest_pos hlong).1 (Nat.pos_of_ne_zero hpos)
      exact ⟨⟨hhead, hlong, hends⟩, (Option.some.inj hc).symm⟩
  · rintro ⟨⟨hhead, hlong, hends⟩, rfl⟩
    have hpos := (Path.tailMatch_rest_pos hlong).2 hends
    refine ⟨key.rest, Path.tailSuffix?_eq_some.2 ⟨hhead, hlong, rfl⟩, ?_⟩
    dsimp only
    rw [if_neg (Nat.ne_of_gt hpos)]

/-- More shared segments win, then the shorter key, then the earlier registration. -/
def Outranks (registrations : List (Path × ι)) (path key other : Path) : Prop :=
  sharedWith path other < sharedWith path key ∨
    sharedWith path key = sharedWith path other ∧
      (key.length < other.length ∨
        key.length = other.length ∧
          (registrations.map (·.1)).idxOf key < (registrations.map (·.1)).idxOf other)

theorem Outranks.asymm {registrations : List (Path × ι)} {path key other : Path}
    (h : Outranks registrations path key other) : ¬ Outranks registrations path other key := by
  unfold Outranks at *
  omega

theorem outranks_of_beats {registrations : List (Path × ι)} {path key other : Path}
    (h : (contender registrations path key).Beats (contender registrations path other)) :
    Outranks registrations path key other := by
  simp only [contender, Candidate.Beats, Path.length_rest] at h
  unfold Outranks
  omega

theorem outranks_of_not_beats {registrations : List (Path × ι)} {path key other : Path}
    (hlong : 2 ≤ other.length)
    (h : ¬ (contender registrations path other).Beats (contender registrations path key))
    (hfirst : (registrations.map (·.1)).idxOf key < (registrations.map (·.1)).idxOf other) :
    Outranks registrations path key other := by
  simp only [contender, Candidate.Beats, Path.length_rest] at h
  unfold Outranks
  omega

/-- The key is registered, ends like the path, and outranks every other such key. -/
structure Wins (registrations : List (Path × ι)) (path key : Path) : Prop where
  registered : key ∈ registrations.map (·.1)
  endsLike : EndsLike path key
  outranks : ∀ other ∈ registrations.map (·.1), EndsLike path other → other ≠ key →
    Outranks registrations path key other

section Wins

variable {registrations : List (Path × ι)} {path key other : Path}

theorem Wins.unique (h : Wins registrations path key) (h' : Wins registrations path other) :
    other = key := by
  apply Decidable.byContradiction
  intro hne
  have ho := h.outranks other h'.registered h'.endsLike hne
  exact ho.asymm (h'.outranks key h.registered h.endsLike (Ne.symm hne))

/-- The winner matches in full if some key does that shares as much with the path. -/
theorem Wins.matchesInFull (h : Wins registrations path key)
    (hr : other ∈ registrations.map (·.1)) (he : EndsLike path other)
    (hs : sharedWith path other = sharedWith path key) (hf : MatchesInFull path other) :
    MatchesInFull path key := by
  by_cases hne : other = key
  · rwa [← hne]
  · have hle : sharedWith path key ≤ key.rest.length :=
      Path.commonTail_le_length_right path key.rest
    have hlong := h.endsLike.long
    have hout := h.outranks other hr he hne
    rw [MatchesInFull, Path.length_rest] at *
    unfold Outranks at hout
    omega

/-- The key whose rule leads the scan outranks the others that end like the path. -/
theorem wins_of_leads {c : Candidate ι}
    (h : c.Leads (((registeredKeys registrations).map (ruleOf registrations)).filterMap
      (candidate? path))) :
    ∃ key, Wins registrations path key ∧ c.actions = registeredUnder registrations key := by
  obtain ⟨before, after, hall, hbefore, hafter⟩ := h
  rw [List.filterMap_map] at hall
  obtain ⟨front, back, hkeys, hfront, hback⟩ := List.filterMap_eq_append_iff.1 hall
  obtain ⟨skipped, key, behind, rfl, hskipped, hkey, hbehind⟩ :=
    List.filterMap_eq_cons_iff.1 hback
  obtain ⟨hends, rfl⟩ := candidate?_ruleOf.1 hkey
  have hregistered : ∀ k,
      k ∈ registrations.map (·.1) ↔ k ∈ front ++ (skipped ++ key :: behind) := by
    intro k
    rw [← hkeys, registeredKeys, List.mem_eraseDups]
  have horder := pairwise_idxOf_eraseDups (registrations.map (·.1))
  rw [← registeredKeys, hkeys, List.pairwise_append, List.pairwise_append,
    List.pairwise_cons] at horder
  obtain ⟨-, ⟨-, ⟨hfirst, -⟩, -⟩, -⟩ := horder
  refine ⟨key, ⟨(hregistered key).2 (by simp), hends, fun other ho he hne => ?_⟩, rfl⟩
  have hother : candidate? path (ruleOf registrations other) =
      some (contender registrations path other) := candidate?_ruleOf.2 ⟨he, rfl⟩
  rcases List.mem_append.1 ((hregistered other).1 ho) with hm | hm
  · refine outranks_of_beats (hbefore _ ?_)
    rw [← hfront]
    exact List.mem_filterMap.2 ⟨other, hm, hother⟩
  rcases List.mem_append.1 hm with hm | hm
  · have hnone := hskipped other hm
    rw [Function.comp_apply, hother] at hnone
    contradiction
  rcases List.mem_cons.1 hm with rfl | hm
  · contradiction
  · refine outranks_of_not_beats he.long (hafter _ ?_) (hfirst other hm)
    rw [← hbehind]
    exact List.mem_filterMap.2 ⟨other, hm, hother⟩

/-- The scan finds the winner, and it finds nothing only if no key ends like the path. -/
theorem Holds.bestTail? {book : RuleBook ι} (h : book.Holds registrations) (path : Path) :
    (book.bestTail? path = none ∧ ∀ key ∈ registrations.map (·.1), ¬ EndsLike path key) ∨
      ∃ c key, book.bestTail? path = some c ∧ Wins registrations path key ∧
        c.actions = registeredUnder registrations key := by
  rw [bestTail?_eq_foldl, h.rules]
  rcases Candidate.foldl_better (((registeredKeys registrations).map
    (ruleOf registrations)).filterMap (candidate? path)) with ⟨hnone, hempty⟩ | ⟨c, hc, hl⟩
  · refine Or.inl ⟨hnone, fun key hk he => ?_⟩
    have hcandidate := List.filterMap_eq_nil_iff.1 hempty _
      (List.mem_map_of_mem (List.mem_eraseDups.2 hk))
    rw [candidate?_ruleOf.2 ⟨he, rfl⟩] at hcandidate
    contradiction
  · obtain ⟨key, hw, ha⟩ := wins_of_leads hl
    exact Or.inr ⟨c, key, hc, hw, ha⟩

end Wins

/-! ## The actions of a path -/

section ActionsAt

variable {book : RuleBook ι} {registrations : List (Path × ι)} {path : Path}

theorem Holds.actionsAt?_registered (h : book.Holds registrations)
    (hm : path ∈ registrations.map (·.1)) :
    book.actionsAt? path = some (registeredUnder registrations path) := by
  obtain ⟨i, hi⟩ := List.mem_iff_getElem?.1 (List.mem_eraseDups.2 hm)
  rw [← registeredKeys] at hi
  have hrule : book.rules[i]? = some (ruleOf registrations path) := by
    rw [← Array.getElem?_toList, h.rules, List.getElem?_map, hi]
    rfl
  rw [actionsAt?, (h.index path i).2 hi]
  dsimp only
  rw [hrule]
  rfl

theorem Holds.actionsAt?_unregistered (h : book.Holds registrations)
    (hm : path ∉ registrations.map (·.1)) :
    book.actionsAt? path = (book.bestTail? path).map (·.actions) := by
  cases hi : book.index[path]? with
  | none => rw [actionsAt?, hi]
  | some i => exact absurd (List.mem_eraseDups.1 (h.mem_keys hi)) hm

theorem Holds.actionsAt?_wins (h : book.Holds registrations)
    (hm : path ∉ registrations.map (·.1))
    (hc : ∃ key ∈ registrations.map (·.1), EndsLike path key) :
    ∃ winner, Wins registrations path winner ∧
      book.actionsAt? path = some (registeredUnder registrations winner) := by
  rw [h.actionsAt?_unregistered hm]
  rcases h.bestTail? path with ⟨-, hno⟩ | ⟨c, key, hc, hw, ha⟩
  · obtain ⟨key, hk, he⟩ := hc
    exact absurd he (hno key hk)
  · refine ⟨key, hw, ?_⟩
    rw [hc, Option.map_some, ha]

theorem Holds.actionsAt?_eq_none (h : book.Holds registrations) :
    book.actionsAt? path = none ↔
      path ∉ registrations.map (·.1) ∧ ¬ ∃ key ∈ registrations.map (·.1), EndsLike path key := by
  constructor
  · intro hn
    have hm : path ∉ registrations.map (·.1) := by
      intro hm
      rw [h.actionsAt?_registered hm] at hn
      contradiction
    refine ⟨hm, fun hc => ?_⟩
    obtain ⟨winner, -, hw⟩ := h.actionsAt?_wins hm hc
    rw [hw] at hn
    contradiction
  · rintro ⟨hm, hno⟩
    rw [h.actionsAt?_unregistered hm]
    rcases h.bestTail? path with ⟨hnone, -⟩ | ⟨c, key, -, hw, -⟩
    · rw [hnone, Option.map_none]
    · exact absurd ⟨key, hw.registered, hw.endsLike⟩ hno

end ActionsAt

theorem wins_singleton {path key : Path} (h : EndsLike path key) (action : ι) :
    Wins [(key, action)] path key where
  registered := List.mem_singleton_self key
  endsLike := h
  outranks _ ho _ hne := absurd (List.mem_singleton.1 ho) hne

/-- The path behind two wildcards ends like the path and is longer than what they can share. -/
theorem exists_endsLike_not_matchesInFull {path : Path} (h : path ≠ Path.empty) :
    ∃ key, key ≠ path ∧ EndsLike path key ∧ ¬ MatchesInFull path key := by
  obtain ⟨segments⟩ := path
  have hne : segments ≠ [] := fun he => h (congrArg Path.mk he)
  refine ⟨⟨Path.wildcard :: Path.wildcard :: segments⟩, ?_, ⟨rfl, ?_, ?_⟩, ?_⟩
  · intro he
    have hlen := congrArg Path.length he
    simp only [Path.length, List.length_cons] at hlen
    omega
  · simp [Path.length]
  · simp [Path.last?, List.getLast?_cons, List.getLast?_eq_getLast_of_ne_nil hne]
  · intro hf
    have hle := Path.commonTail_le_length_left ⟨segments⟩
      (Path.rest ⟨Path.wildcard :: Path.wildcard :: segments⟩)
    rw [MatchesInFull, sharedWith] at hf
    rw [hf] at hle
    simp only [Path.rest, Path.length, List.tail_cons, List.length_cons] at hle
    omega

/-- The actions of a path, from the registrations alone. -/
theorem actionsAt?_ofList (registrations : List (Path × ι)) (path : Path) :
    (path ∈ registrations.map (·.1) →
      (ofList registrations).actionsAt? path = some (registeredUnder registrations path)) ∧
    (path ∉ registrations.map (·.1) → (∃ key ∈ registrations.map (·.1), EndsLike path key) →
      ∃ winner, Wins registrations path winner ∧
        (∀ other, Wins registrations path other → other = winner) ∧
        (ofList registrations).actionsAt? path = some (registeredUnder registrations winner)) ∧
    ((ofList registrations).actionsAt? path = none ↔
      path ∉ registrations.map (·.1) ∧ ¬ ∃ key ∈ registrations.map (·.1), EndsLike path key) ∧
    (∀ winner, Wins registrations path winner → ¬ MatchesInFull path winner →
      ∀ other ∈ registrations.map (·.1), EndsLike path other →
        sharedWith path other = sharedWith path winner → ¬ MatchesInFull path other) ∧
    (path ≠ Path.empty → ∀ action : ι, ∃ others winner, path ∉ others.map (·.1) ∧
      Wins others path winner ∧ ¬ MatchesInFull path winner ∧
      (ofList others).actionsAt? path = some [action]) := by
  have hholds := holds_ofList registrations
  refine ⟨hholds.actionsAt?_registered, fun hm hc => ?_, hholds.actionsAt?_eq_none,
    fun winner hw hn other ho he hs hf => hn (hw.matchesInFull ho he hs hf),
    fun hne action => ?_⟩
  · obtain ⟨winner, hw, ha⟩ := hholds.actionsAt?_wins hm hc
    exact ⟨winner, hw, fun other => hw.unique, ha⟩
  · obtain ⟨key, hk, he, hn⟩ := exists_endsLike_not_matchesInFull hne
    have hw := wins_singleton he action
    have hm : path ∉ [(key, action)].map (·.1) := fun hm => hk (List.mem_singleton.1 hm).symm
    have hheld := holds_ofList [(key, action)]
    obtain ⟨winner, hw', ha⟩ := hheld.actionsAt?_wins hm ⟨key, hw.registered, he⟩
    obtain rfl := hw.unique hw'
    refine ⟨[(winner, action)], winner, hm, hw, hn, ?_⟩
    rw [ha]
    simp [registeredUnder]

end RuleBook

end DocRules
