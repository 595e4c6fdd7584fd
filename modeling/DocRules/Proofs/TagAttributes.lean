import DocRules.Proofs.Placing

/-! # The attributes of a tag

Every assignment in a tag comes to something: an attribute of the element, a declaration of a
namespace, or an error that is reported before the element. Reading goes on after each of them, and
a name that was assigned once is not assigned again, also if nothing became of it the first time. So
the attributes of an element have different names. -/

namespace DocRules.Markup

/-! ## Names are assigned once -/

/-- What reading the assignments in the content of a tag comes to, one after the other. -/
def resultsOf (content : List Char) : List (Except AttributeFault Assignment) :=
  assignmentsFrom true [] (Text.byteLength (nameOf content)) (attributesOf content)

def assignedNames (results : List (Except AttributeFault Assignment)) : List String :=
  results.filterMap fun
    | .ok a => some a.name
    | .error _ => none

@[simp]
theorem assignedNames_nil : assignedNames [] = [] := rfl

@[simp]
theorem assignedNames_error (fault : AttributeFault)
    (results : List (Except AttributeFault Assignment)) :
    assignedNames (.error fault :: results) = assignedNames results := rfl

@[simp]
theorem assignedNames_ok (a : Assignment) (results : List (Except AttributeFault Assignment)) :
    assignedNames (.ok a :: results) = a.name :: assignedNames results := rfl

theorem scanValue_used (name : String) (used : List (String × Nat)) (offset : Nat)
    (text : List Char) : (scanValue name used offset text).used = used := by
  unfold scanValue
  simp only
  split
  · rfl
  · split
    · split <;> rfl
    · rfl

theorem name_of_scanValue {name : String} {used : List (String × Nat)} {offset : Nat}
    {text : List Char} {a : Assignment} (h : (scanValue name used offset text).result = .ok a) :
    a.name = name := by
  unfold scanValue at h
  simp only at h
  split at h
  · contradiction
  · split at h
    · split at h
      · contradiction
      · cases h
        rfl
    · contradiction

/-- Reading an assignment uses no name up or one that was not used before, and only an assignment of
that name can be well-formed. -/
theorem scanAssignment_used (used : List (String × Nat)) (offset : Nat) (c : Char)
    (text : List Char) :
    let s := scanAssignment true used offset c text
    (∃ fault, s.result = .error fault ∧ s.used = used) ∨
      ∃ name, used.lookup name = none ∧ s.used = (name, offset) :: used ∧
        ∀ a, s.result = .ok a → a.name = name := by
  intro s
  unfold s scanAssignment
  simp only [if_true]
  split
  · split
    · exact .inl ⟨_, rfl, rfl⟩
    · rename_i hunused
      refine .inr ⟨_, hunused, scanValue_used .., ?_⟩
      intro a ha
      exact name_of_scanValue ha
  · exact .inl ⟨_, rfl, rfl⟩

/-- A name that was used stays used. -/
theorem lookup_of_scanAssignment {used : List (String × Nat)} {offset : Nat} {c : Char}
    {text : List Char} {name : String}
    (h : (scanAssignment true used offset c text).used.lookup name = none) :
    used.lookup name = none := by
  rcases scanAssignment_used used offset c text with ⟨fault, -, hu⟩ | ⟨key, -, hu, -⟩
  · rwa [hu] at h
  · rw [hu, List.lookup_cons] at h
    split at h
    · contradiction
    · exact h

/-- The name of a well-formed assignment was not used before, and is used from then on. -/
theorem lookup_name_scanAssignment {used : List (String × Nat)} {offset : Nat} {c : Char}
    {text : List Char} {a : Assignment}
    (h : (scanAssignment true used offset c text).result = .ok a) :
    used.lookup a.name = none ∧
      (scanAssignment true used offset c text).used.lookup a.name ≠ none := by
  rcases scanAssignment_used used offset c text with ⟨fault, hr, -⟩ | ⟨key, hkey, hu, hr⟩
  · rw [hr] at h
    contradiction
  · rw [hr a h, hu]
    exact ⟨hkey, by simp⟩

/-- No name is assigned twice, and none that was used before. -/
theorem nodup_assignedNames (used : List (String × Nat)) (offset : Nat) (text : List Char) :
    (assignedNames (assignmentsFrom true used offset text)).Nodup ∧
      ∀ name ∈ assignedNames (assignmentsFrom true used offset text), used.lookup name = none := by
  fun_induction assignmentsFrom true used offset text with
  | case1 => simp
  | case2 used offset text c body h start s hlt ih =>
    obtain ⟨hnodup, hunused⟩ := ih
    cases hresult : s.result with
    | error fault =>
      rw [assignedNames_error]
      refine ⟨hnodup, ?_⟩
      intro name hm
      exact lookup_of_scanAssignment (hunused name hm)
    | ok a =>
      obtain ⟨hfresh, htaken⟩ := lookup_name_scanAssignment hresult
      rw [assignedNames_ok]
      refine ⟨List.nodup_cons.2 ⟨fun hm => htaken (hunused a.name hm), hnodup⟩, ?_⟩
      intro name hm
      rcases List.mem_cons.1 hm with rfl | hm
      · exact hfresh
      · exact lookup_of_scanAssignment (hunused name hm)

/-- A value that stands for nothing uses up its name all the same. -/
example :
    resultsOf "a v='&x;' v='3' k='1'".toList =
      [.ok ⟨"v", "&x;".toList⟩, .error (.duplicated 10 2), .ok ⟨"k", ['1']⟩] := by
  cbv

/-! ## What becomes of the assignments -/

/-- An attribute of this name declares a namespace. -/
def DeclaresSpace (name : String) : Prop := name = "xmlns" ∨ "xmlns:".toList <+: name.toList

theorem afterMark?_append (mark rest : List Char) : Text.afterMark? mark (mark ++ rest) = some rest := by
  induction mark with
  | nil => rfl
  | cons m mark ih => simp [Text.afterMark?, ih]

theorem isSome_declaredQualifier? (name : String) :
    (declaredQualifier? name).isSome = true ↔ DeclaresSpace name := by
  have hxmlns : "xmlns:".toList = "xmlns".toList ++ [':'] := by decide
  unfold declaredQualifier? DeclaresSpace
  constructor
  · intro h
    split at h
    · rename_i hm
      have hname := Text.eq_append_of_afterMark? hm
      rw [List.append_nil] at hname
      exact .inl (String.toList_inj.1 hname)
    · rename_i qualifier hm
      refine .inr ⟨qualifier, ?_⟩
      rw [Text.eq_append_of_afterMark? hm, hxmlns, List.append_assoc, List.singleton_append]
    · contradiction
  · rintro (rfl | ⟨qualifier, hq⟩)
    · have hm := afterMark?_append "xmlns".toList []
      rw [List.append_nil] at hm
      rw [hm]
      rfl
    · have hm := afterMark?_append "xmlns".toList (':' :: qualifier)
      rw [← List.singleton_append, ← List.append_assoc, ← hxmlns, hq] at hm
      rw [hm]
      rfl

/-- The assignments in the tag of an element called `tag` come to these attributes and these reasons
for leaving one out, each assignment to one or the other, unless it declares a namespace. -/
inductive Accounts (tag : String) :
    List (Except AttributeFault Assignment) → List Attribute → List String → Prop where
  | nil : Accounts tag [] [] []
  | kept {a : Assignment} {value : String} {results : List (Except AttributeFault Assignment)}
      {attributes : List Attribute} {reasons : List String} :
      ¬ DeclaresSpace a.name → unescape a.value = .ok value →
      Accounts tag results attributes reasons →
      Accounts tag (.ok a :: results) (⟨a.name, value⟩ :: attributes) reasons
  | declaration {a : Assignment} {results : List (Except AttributeFault Assignment)}
      {attributes : List Attribute} {reasons : List String} :
      DeclaresSpace a.name → Accounts tag results attributes reasons →
      Accounts tag (.ok a :: results) attributes reasons
  | badValue {a : Assignment} {fault : ReferenceFault}
      {results : List (Except AttributeFault Assignment)} {attributes : List Attribute}
      {reasons : List String} :
      ¬ DeclaresSpace a.name → unescape a.value = .error fault →
      Accounts tag results attributes reasons →
      Accounts tag (.ok a :: results) attributes
        (s!"Bad value for attribute '{a.name}' on <{tag}>: {fault.message}" :: reasons)
  | malformed {fault : AttributeFault} {results : List (Except AttributeFault Assignment)}
      {attributes : List Attribute} {reasons : List String} :
      Accounts tag results attributes reasons →
      Accounts tag (.error fault :: results) attributes
        (s!"Malformed attribute on <{tag}>: {fault.message}" :: reasons)

theorem accounts_outcomes (tag : String) (results : List (Except AttributeFault Assignment)) :
    Accounts tag results (keptOf (results.map (outcomeOf tag))).toList
      (problemsOf (results.map (outcomeOf tag))) := by
  induction results with
  | nil => exact .nil
  | cons result results ih =>
    cases result with
    | error fault => exact .malformed ih
    | ok a =>
      have hspace := isSome_declaredQualifier? a.name
      cases hq : (declaredQualifier? a.name).isSome with
      | true =>
        have houtcome : outcomeOf tag (.ok a) = .declaration := by simp [outcomeOf, hq]
        rw [List.map_cons, houtcome]
        exact .declaration (hspace.1 hq) ih
      | false =>
        have hn : ¬ DeclaresSpace a.name := fun hd => by simp [hspace.2 hd] at hq
        cases hv : unescape a.value with
        | ok value =>
          have houtcome : outcomeOf tag (.ok a) = .kept ⟨a.name, value⟩ := by
            simp [outcomeOf, hq, hv]
          rw [List.map_cons, houtcome]
          exact .kept hn hv ih
        | error fault =>
          have houtcome : outcomeOf tag (.ok a) =
              .problem s!"Bad value for attribute '{a.name}' on <{tag}>: {fault.message}" := by
            simp [outcomeOf, hq, hv]
          rw [List.map_cons, houtcome]
          exact .badValue hn hv ih

namespace Accounts

variable {tag : String} {results : List (Except AttributeFault Assignment)}
  {attributes : List Attribute} {reasons : List String}

theorem names_sublist (h : Accounts tag results attributes reasons) :
    (attributes.map (·.name)).Sublist (assignedNames results) := by
  induction h with
  | nil => exact .slnil
  | kept _ _ _ ih => exact ih.cons_cons _
  | declaration _ _ ih => exact ih.cons _
  | badValue _ _ _ ih => exact ih.cons _
  | malformed _ ih => exact ih

theorem not_declaresSpace (h : Accounts tag results attributes reasons) :
    ∀ a ∈ attributes, ¬ DeclaresSpace a.name := by
  induction h with
  | nil => simp
  | kept hn _ _ ih =>
    intro b hb
    rcases List.mem_cons.1 hb with rfl | hb
    · exact hn
    · exact ih b hb
  | declaration _ _ ih => exact ih
  | badValue _ _ _ ih => exact ih
  | malformed _ ih => exact ih

end Accounts

/-! ## What is told of a tag -/

/-- The tag with this content begins an element, and what is told of it is: a move to `p`, the reasons
for leaving out attributes, reported there, and the start of the element with the other ones. Nothing
follows but the end of the element. -/
structure Accounted (p : Position) (content : List Char) (name : ElementName)
    (attributes : Attributes) (events : List Event) : Prop where
  told : ∃ reasons closing,
    events = .moveTo p :: (reasons.map (fun reason => .report .error ⟨reason, p⟩) ++
      .startElement name attributes :: closing) ∧
    (closing = [] ∨ closing = [.endElement name]) ∧
    Accounts (String.ofList (nameOf content)) (resultsOf content) attributes.toList reasons
  nodup : (attributes.toList.map (·.name)).Nodup
  not_declaresSpace : ∀ a ∈ attributes.toList, ¬ DeclaresSpace a.name

theorem startEvents_accounted {tag : Tag} {space : Option String} (h : tag.space = .ok space)
    (content : List Char) (p : Position) {closing : List Event}
    (hc : closing = [] ∨ closing = endEvents tag) :
    Accounted p content (tag.elementName space) (keptOf (outcomesOf content))
      (startEvents tag content p ++ closing) := by
  have haccounts : Accounts (String.ofList (nameOf content)) (resultsOf content)
      (keptOf (outcomesOf content)).toList (problemsOf (outcomesOf content)) :=
    accounts_outcomes _ _
  rw [endEvents_declared h] at hc
  refine ⟨⟨problemsOf (outcomesOf content), closing, ?_, hc, haccounts⟩, ?_,
    haccounts.not_declaresSpace⟩
  · simp [startEvents_declared h]
  · exact haccounts.names_sublist.nodup (nodup_assignedNames _ _ _).1

theorem of_startElement_mem_startEvents {tag : Tag} {content : List Char} {p : Position}
    {name : ElementName} {attributes : Attributes}
    (h : .startElement name attributes ∈ startEvents tag content p) :
    ∃ space, tag.space = .ok space ∧ name = tag.elementName space ∧
      attributes = keptOf (outcomesOf content) := by
  cases hs : tag.space with
  | error qualifier =>
    obtain ⟨reason, he⟩ := startEvents_undeclared hs content p
    simp [he] at h
  | ok space => exact ⟨space, rfl, by simpa [startEvents_declared hs] using h⟩

theorem startElement_notMem_endEvents (tag : Tag) (name : ElementName) (attributes : Attributes) :
    .startElement name attributes ∉ endEvents tag := by
  unfold endEvents
  split <;> simp

namespace ReadState

/-- Only a tag that opens an element or is one tells of its start. -/
theorem Adds.accounted {r next : ReadState} {stop : Nat} {lexeme : Lexeme} {added : List Event}
    (h : r.Adds stop lexeme added next) {name : ElementName} {attributes : Attributes}
    (hm : .startElement name attributes ∈ added) :
    ∃ content p, (lexeme = .startTag content ∨ lexeme = .emptyTag content) ∧
      Accounted p content name attributes added := by
  cases h with
  | silent => simp at hm
  | doctype content => simp at hm
  | @startTag content inner ht =>
    obtain ⟨space, hs, rfl, rfl⟩ := of_startElement_mem_startEvents hm
    have haccounted := startEvents_accounted hs content (r.cursor.locate stop).2 (.inl rfl)
    rw [List.append_nil] at haccounted
    exact ⟨content, _, .inl rfl, haccounted⟩
  | @emptyTag content inner ht =>
    have hstart := (List.mem_append.1 hm).resolve_right
      (startElement_notMem_endEvents inner.resolved _ _)
    obtain ⟨space, hs, rfl, rfl⟩ := of_startElement_mem_startEvents hstart
    exact ⟨content, _, .inr rfl, startEvents_accounted hs content _ (.inr rfl)⟩
  | endTag ho => simp [startElement_notMem_endEvents] at hm

theorem Covers.exists_adds {r next : ReadState} {told : List Told} (h : r.Covers told next) :
    ∀ t ∈ told, ∃ before after : ReadState, before.Adds t.stop t.lexeme t.events after := by
  induction h with
  | nil r => simp
  | cons start hadds _ ih =>
    intro t ht
    rcases List.mem_cons.1 ht with rfl | ht
    · exact ⟨_, _, hadds⟩
    · exact ih t ht

end ReadState

/-- Reading a document tells of its lexemes one after the other, up to where it halts. Where the start
of an element is told, the lexeme is its tag, and each assignment in the tag comes to one thing, in
order: an attribute of the element, the declaration of a namespace, which is no attribute, or an error,
which is reported before the element at the position behind the tag. The attributes have different
names, and none of them declares a namespace. -/
theorem attributes_accounted (trim : Bool) (text : String) :
    let document := dropByteOrderMark text.toList
    ∃ told rest last,
      lexemes trim (dropByteOrderMark document) = .prepend told rest ∧
      readDocument trim text = .startDocument :: (told.flatMap Told.events ++ [last]) ∧
      (last = .endDocument ∨ ∃ d, last = .report .fatal d) ∧
      ∀ t ∈ told, ∀ name attributes, .startElement name attributes ∈ t.events →
        ∃ content, (t.lexeme = .startTag content ∨ t.lexeme = .emptyTag content) ∧
          Accounted (.ofOffset (Text.utf8 document) t.stop) content name attributes t.events := by
  intro document
  obtain ⟨told, rest, next, last, hlexemes, hcovers, hhalts, hread⟩ := exists_told trim text
  obtain ⟨-, hlocated⟩ := hcovers.located (Position.Cursor.counts_ofBytes _)
  refine ⟨told, rest, last, hlexemes, hread, hhalts.last_cases.imp_left And.left, ?_⟩
  intro t ht name attributes hm
  obtain ⟨before, after, hadds⟩ := hcovers.exists_adds t ht
  obtain ⟨content, p, hl, haccounted⟩ := hadds.accounted hm
  refine ⟨content, hl, ?_⟩
  -- the move that is told of first leads to the end of the tag
  have htag : t.lexeme.isTag = true := by rcases hl with hl | hl <;> simp [hl, Lexeme.isTag]
  obtain ⟨others, hothers, -⟩ := (hlocated t ht).tag htag
  obtain ⟨reasons, closing, htold, -⟩ := haccounted.told
  have hp : p = .ofOffset (Text.utf8 document) t.stop := by
    rw [htold] at hothers
    simpa using (List.cons.inj hothers).1
  rwa [← hp]

/-- The second of two assignments of one name is left out. -/
theorem attributes_accounted_repeated :
    ∃ t : Told, t.lexeme = .emptyTag "a k='1' k='2'".toList ∧
      .startElement ⟨none, "a", "a"⟩ ⟨[⟨"k", "1"⟩]⟩ ∈ t.events ∧
      Accounted ⟨1, 17⟩ "a k='1' k='2'".toList ⟨none, "a", "a"⟩ ⟨[⟨"k", "1"⟩]⟩ t.events := by
  have hlexemes : lexemes true (dropByteOrderMark (dropByteOrderMark "<a k='1' k='2'/>".toList)) =
      .next 0 16 (.emptyTag "a k='1' k='2'".toList) (.eof 16) := by cbv
  have htag : OpenTag.ofContent [] "a k='1' k='2'".toList = .ok ⟨['a'], []⟩ := by cbv
  have hkept : keptOf (outcomesOf "a k='1' k='2'".toList) = ⟨[⟨"k", "1"⟩]⟩ := by
    have hresults : resultsOf "a k='1' k='2'".toList =
        [.ok ⟨"k", ['1']⟩, .error (.duplicated 8 2)] := by cbv
    have hname : declaredQualifier? "k" = none := by cbv
    have hvalue : unescape ['1'] = .ok "1" := by cbv
    show keptOf ((resultsOf _).map _) = _
    rw [hresults]
    simp [outcomeOf, hname, hvalue, keptOf]
  obtain ⟨told, rest, last, htold, hread, hlast, haccounted⟩ :=
    attributes_accounted true "<a k='1' k='2'/>"
  have hstart : .startElement ⟨none, "a", "a"⟩ ⟨[⟨"k", "1"⟩]⟩ ∈
      readDocument true "<a k='1' k='2'/>" := by
    have hadds : (ReadState.ofDocument (dropByteOrderMark "<a k='1' k='2'/>".toList)).Adds 16
        (.emptyTag "a k='1' k='2'".toList) _ _ := .emptyTag htag
    rw [readDocument_eq]
    simp only [hlexemes]
    rw [hadds.events_eq, startEvents_declared rfl, hkept]
    simp [OpenTag.resolved, Tag.elementName, show splitName ['a'] = (none, ['a']) from rfl]
  have hmem : .startElement ⟨none, "a", "a"⟩ ⟨[⟨"k", "1"⟩]⟩ ∈ told.flatMap Told.events := by
    rw [hread] at hstart
    rcases hlast with rfl | ⟨d, rfl⟩ <;> simpa using hstart
  obtain ⟨t, ht, hm⟩ := List.mem_flatMap.1 hmem
  obtain ⟨content, hl, hcontent⟩ := haccounted t ht _ _ hm
  rw [hlexemes] at htold
  cases told with
  | nil => contradiction
  | cons first others =>
    obtain ⟨-, hstop, hlexeme, hrest⟩ := Lexemes.next.inj htold
    cases others with
    | cons => contradiction
    | nil =>
      obtain rfl := List.mem_singleton.1 ht
      rw [← hlexeme] at hl
      obtain rfl : "a k='1' k='2'".toList = content := by simpa using hl
      have hp : Position.ofOffset (Text.utf8 (dropByteOrderMark "<a k='1' k='2'/>".toList)) 16 =
          ⟨1, 17⟩ := by cbv
      rw [← hstop, hp] at hcontent
      exact ⟨t, hlexeme.symm, hm, hcontent⟩

end DocRules.Markup
