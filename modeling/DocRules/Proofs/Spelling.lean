import Mathlib.Data.List.Basic
import Mathlib.Data.List.Induction
import DocRules.Path

/-! # Paths and their texts

A path can be spelled out if no name in it is empty and none holds a slash. Reading gives such paths
only, and reads what was written of one back to itself; of any other path it reads something else.
A slash between two texts puts their paths one behind the other, so it does not matter how many
slashes stand in one place, and none at the ends do. -/

namespace DocRules.Path

/-- No name is empty and none holds a slash. -/
def Spellable (p : Path) : Prop := ∀ name ∈ p.segments, name ≠ "" ∧ '/' ∉ name.toList

instance (p : Path) : Decidable p.Spellable :=
  inferInstanceAs (Decidable (∀ name ∈ p.segments, name ≠ "" ∧ '/' ∉ name.toList))

/-! ## Splitting at slashes -/

theorem pieces_append_slash (text more : List Char) :
    pieces (text ++ '/' :: more) =
      ((pieces text).1, (pieces text).2 ++ (pieces more).1 :: (pieces more).2) := by
  induction text with
  | nil => simp [pieces]
  | cons c text ih =>
    rw [List.cons_append, pieces, ih, pieces]
    by_cases hc : c = '/'
    · simp [hc]
    · simp [hc]

theorem pieces_of_notMem {text : List Char} (h : '/' ∉ text) : pieces text = (text, []) := by
  induction text with
  | nil => rfl
  | cons c text ih =>
    rw [List.mem_cons, not_or] at h
    rw [pieces, ih h.2]
    simp [Ne.symm h.1]

theorem slash_notMem_pieces (text : List Char) :
    ∀ piece ∈ (pieces text).1 :: (pieces text).2, '/' ∉ piece := by
  induction text with
  | nil => simp [pieces]
  | cons c text ih =>
    rw [List.forall_mem_cons] at ih
    rw [pieces]
    by_cases hc : c = '/'
    · simpa [hc] using ih
    · simpa [hc, Ne.symm hc] using ih

/-! ## Reading -/

theorem spellable_parse (text : String) : (parse text).Spellable := by
  intro name hname
  obtain ⟨piece, hpiece, rfl⟩ := List.mem_map.1 hname
  obtain ⟨hmem, hkept⟩ := List.mem_filter.1 hpiece
  constructor
  · intro he
    have hnil : piece = [] := by simpa using congrArg String.toList he
    simp [hnil] at hkept
  · rw [String.toList_ofList]
    exact slash_notMem_pieces _ piece hmem

/-- A slash between two texts puts their names one behind the other. -/
theorem segments_parse_slash (text more : String) :
    (parse (text ++ "/" ++ more)).segments = (parse text).segments ++ (parse more).segments := by
  have hchars : (text ++ "/" ++ more).toList = text.toList ++ '/' :: more.toList := by simp
  simp only [parse, hchars, pieces_append_slash]
  rw [← List.cons_append, List.filter_append, List.map_append]

theorem parse_nil : parse "" = empty := rfl

/-- A name is read as the path of that one name. -/
theorem segments_parse_name {name : String} (h : name ≠ "") (hslash : '/' ∉ name.toList) :
    (parse name).segments = [name] := by
  have hne : name.toList ≠ [] := by simpa using h
  simp [parse, pieces_of_notMem hslash, hne]

/-! ## Reading what was written -/

theorem render_push (p : Path) (name : String) : (p.push name).render = p.render ++ "/" ++ name := by
  simp [render, push, String.append_assoc]

/-- What was written of a path is read name by name. -/
theorem segments_parse_render (p : Path) :
    (parse p.render).segments = p.segments.flatMap fun name => (parse name).segments := by
  obtain ⟨names⟩ := p
  induction names using List.reverseRecOn with
  | nil => rfl
  | append_singleton names name ih =>
    show (parse (push ⟨names⟩ name).render).segments = _
    rw [render_push, segments_parse_slash, ih]
    simp

theorem parse_render {p : Path} (h : p.Spellable) : parse p.render = p := by
  have hnames : (p.segments.flatMap fun name => (parse name).segments) =
      p.segments.flatMap fun name => [name] := by
    refine List.flatMap_congr ?_
    intro name hname
    exact segments_parse_name (h name hname).1 (h name hname).2
  have hsegments : (parse p.render).segments = p.segments := by
    rw [segments_parse_render, hnames, List.flatMap_singleton']
  exact congrArg Path.mk hsegments

/-- Only paths that can be spelled out come back. -/
theorem parse_render_iff {p : Path} : parse p.render = p ↔ p.Spellable := by
  constructor
  · intro h
    rw [← h]
    exact spellable_parse _
  · exact parse_render

/-- A name that holds a slash is read as two. -/
example : ¬ (push empty "a/b").Spellable := by decide

theorem parse_render_parse (text : String) : parse (parse text).render = parse text :=
  parse_render (spellable_parse text)

theorem render_parse_inj {text other : String} :
    (parse text).render = (parse other).render ↔ parse text = parse other := by
  constructor
  · intro h
    rw [← parse_render_parse text, h, parse_render_parse]
  · intro h
    rw [h]

/-! ## Slashes that do not matter -/

def slashes (n : Nat) : String := String.ofList (List.replicate n '/')

theorem slashes_succ (n : Nat) : slashes (n + 1) = "/" ++ slashes n := by
  simp [slashes, List.replicate_succ, String.ofList_cons]

theorem slashes_succ_last (n : Nat) : slashes (n + 1) = slashes n ++ "/" := by
  simp [slashes, List.replicate_succ', String.ofList_append]

theorem parse_slash_append (text : String) : parse ("/" ++ text) = parse text := by
  have h := segments_parse_slash "" text
  rw [String.empty_append, parse_nil] at h
  exact congrArg mk h

theorem parse_append_slash (text : String) : parse (text ++ "/") = parse text := by
  have h := segments_parse_slash text ""
  rw [String.append_empty, parse_nil, empty, List.append_nil] at h
  exact congrArg mk h

theorem parse_slashes_append (n : Nat) (text : String) : parse (slashes n ++ text) = parse text := by
  induction n with
  | zero => rw [slashes, List.replicate_zero, String.ofList_nil, String.empty_append]
  | succ n ih => rw [slashes_succ, String.append_assoc, parse_slash_append, ih]

theorem parse_append_slashes (text : String) (n : Nat) : parse (text ++ slashes n) = parse text := by
  induction n with
  | zero => rw [slashes, List.replicate_zero, String.ofList_nil, String.append_empty]
  | succ n ih => rw [slashes_succ_last, ← String.append_assoc, parse_append_slash, ih]

/-- Any number of slashes between two texts reads as one. -/
theorem parse_between_slashes (text more : String) (n : Nat) :
    parse (text ++ slashes (n + 1) ++ more) = parse (text ++ "/" ++ more) := by
  have hsplit : text ++ slashes (n + 1) ++ more = text ++ "/" ++ (slashes n ++ more) := by
    simp only [slashes_succ, String.append_assoc]
  have hsegments : (parse (text ++ slashes (n + 1) ++ more)).segments =
      (parse (text ++ "/" ++ more)).segments := by
    rw [hsplit, segments_parse_slash, parse_slashes_append, segments_parse_slash]
  exact congrArg mk hsegments

/-- A path comes back from its text just if it can be spelled out, as every path that was read can.
Texts with a slash between them are read one behind the other, and more slashes do not matter, in
between or at the ends. Paths that were read are told apart by their texts. -/
theorem text_round_trip :
    (∀ p : Path, parse p.render = p ↔ p.Spellable) ∧
    (∀ text more, (parse (text ++ "/" ++ more)).segments =
      (parse text).segments ++ (parse more).segments) ∧
    (∀ text, (parse text).Spellable ∧ parse (parse text).render = parse text) ∧
    (∀ text before after, parse (slashes before ++ text ++ slashes after) = parse text) ∧
    (∀ text more n, parse (text ++ slashes (n + 1) ++ more) = parse (text ++ "/" ++ more)) ∧
    ∀ text other, parse text = parse other ↔ (parse text).render = (parse other).render := by
  refine ⟨?_, segments_parse_slash, ?_, ?_, parse_between_slashes, ?_⟩
  · intro p
    exact parse_render_iff
  · intro text
    exact ⟨spellable_parse text, parse_render_parse text⟩
  · intro text before after
    rw [parse_append_slashes, parse_slashes_append]
  · intro text other
    exact render_parse_inj.symm

end DocRules.Path
