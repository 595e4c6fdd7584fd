import DocRules.Proofs.Escaping
import DocRules.Proofs.Framing

/-! # Plain tags read back

A tag whose names have no qualifier and whose values are escaped is cut off where it was put
together: its closing bracket ends it, its name is the name, and every attribute is one
well-formed assignment, no name occurring twice. Such a tag leaves the scope as it is. -/

namespace DocRules.Markup

/-! ## Characters of a name -/

theorem ne_of_isNameChar {c d : Char} (hc : isNameChar c = true) (hd : isNameChar d = false) :
    c ≠ d := by
  rintro rfl
  rw [hc] at hd
  contradiction

theorem isBlank_of_isNameChar {c : Char} (h : isNameChar c = true) : Text.isBlank c = false := by
  have hspace := ne_of_isNameChar (d := ' ') h rfl
  have htab := ne_of_isNameChar (d := '\t') h rfl
  have hreturn := ne_of_isNameChar (d := '\r') h rfl
  have hfeed := ne_of_isNameChar (d := '\n') h rfl
  simp [Text.isBlank, hspace, htab, hreturn, hfeed]

theorem isQuote_of_isNameChar {c : Char} (h : isNameChar c = true) : isQuote c = false := by
  have hdouble := ne_of_isNameChar (d := '"') h rfl
  have hsingle := ne_of_isNameChar (d := '\x27') h rfl
  simp [isQuote, hdouble, hsingle]

namespace PlainName

variable (name : PlainName)

theorem isNameChar_of_mem {c : Char} (h : c ∈ name.letters) : isNameChar c = true := by
  rcases List.mem_cons.1 h with rfl | h
  · simp [isNameChar, Char.isAlphanum, name.isAlpha_first]
  · exact name.isNameChar_others c h

theorem notMem_letters {d : Char} (hd : isNameChar d = false) : d ∉ name.letters := fun h =>
  ne_of_isNameChar (name.isNameChar_of_mem h) hd rfl

theorem notBlank_of_mem {c : Char} (h : c ∈ name.letters) : (!Text.isBlank c) = true := by
  rw [isBlank_of_isNameChar (name.isNameChar_of_mem h), Bool.not_false]

theorem passes_letters : Passes name.letters := by
  refine .plain fun c hc => ?_
  have h := name.isNameChar_of_mem hc
  exact ⟨ne_of_isNameChar h rfl, isQuote_of_isNameChar h⟩

theorem splitName_letters : splitName name.letters = (none, name.letters) := by
  rw [splitName, Text.cutAt_eq_none (name.notMem_letters rfl)]

theorem endTagName_letters : endTagName name.letters = name.letters := by
  have hb : ∀ c ∈ name.letters, Text.isBlank c = false := fun c hc =>
    isBlank_of_isNameChar (name.isNameChar_of_mem hc)
  have hall : name.letters.all Text.isBlank = false := by
    rw [letters, List.all_cons, hb _ List.mem_cons_self, Bool.false_and]
  have hlast : name.letters.reverse.dropWhile Text.isBlank = name.letters.reverse := by
    cases hr : name.letters.reverse with
    | nil => rfl
    | cons c rest =>
      have hc : c ∈ name.letters := by
        rw [← List.mem_reverse, hr]
        exact List.mem_cons_self
      rw [List.dropWhile_cons, hb c hc, if_neg Bool.false_ne_true]
  rw [endTagName, hall, if_neg Bool.false_ne_true, Text.dropTrailing, hlast, List.reverse_reverse]

/-- A plain name declares no namespace unless it is `xmlns` itself. -/
theorem declaredQualifier?_text (h : name.text ≠ "xmlns") : declaredQualifier? name.text = none := by
  have hl : name.text.toList = name.letters := String.toList_ofList
  unfold declaredQualifier?
  rw [hl]
  split
  · rename_i hm
    have hletters := Text.eq_append_of_afterMark? hm
    rw [List.append_nil] at hletters
    refine absurd ?_ h
    rw [text, hletters, String.ofList_toList]
  · rename_i qualifier hm
    have hletters := Text.eq_append_of_afterMark? hm
    refine absurd ?_ (name.notMem_letters (d := ':') rfl)
    rw [hletters]
    simp
  · rfl

end PlainName

/-! ## Attributes -/

namespace PlainAttribute

variable (a : PlainAttribute)

theorem passes_written : Passes a.written := by
  have hspace : Passes [' '] := .singleton (by decide) rfl
  have hequals : Passes ['='] := .singleton (by decide) rfl
  have hvalue : Passes ('"' :: (escape a.value ++ ['"'])) :=
    .quoted rfl (by decide) (quote_notMem_escape a.value)
  exact hspace.append (a.name.passes_letters.append (hequals.append hvalue))

/-- What reading the attribute comes to. -/
def assignment : Assignment := ⟨a.name.text, escape a.value⟩

theorem scanValue_written (name : String) (used : List (String × Nat)) (offset : Nat)
    (rest : List Char) :
    ∃ offset', scanValue name used offset ('"' :: (escape a.value ++ '"' :: rest)) =
      ⟨.ok ⟨name, escape a.value⟩, used, offset', rest⟩ := by
  have hcut : Text.cutAt '"' (escape a.value ++ '"' :: rest) = some (escape a.value, rest) :=
    Text.cutAt_append (quote_notMem_escape a.value)
  have hd : ('"' :: (escape a.value ++ '"' :: rest)).dropWhile Text.isBlank =
      '"' :: (escape a.value ++ '"' :: rest) := rfl
  unfold scanValue
  simp only [hd, show isQuote '"' = true from rfl, hcut, if_true]
  exact ⟨_, rfl⟩

theorem scanAssignment_written (unique : Bool) {used : List (String × Nat)}
    (hu : used.lookup a.name.text = none) (offset : Nat) (rest : List Char) :
    ∃ offset', scanAssignment unique used offset a.name.first
        (a.name.others ++ '=' :: '"' :: (escape a.value ++ '"' :: rest)) =
      ⟨.ok a.assignment, (a.name.text, offset) :: used, offset', rest⟩ := by
  have hname : ∀ c ∈ a.name.others, (c != '=' && !Text.isBlank c) = true := by
    intro c hc
    have h := a.name.isNameChar_others c hc
    rw [isBlank_of_isNameChar h, Bool.not_false, Bool.and_true, bne_iff_ne]
    exact ne_of_isNameChar h rfl
  have hstop : ∀ c ∈ ('=' :: '"' :: (escape a.value ++ '"' :: rest)).head?,
      (c != '=' && !Text.isBlank c) = false := by
    rintro c ⟨⟩
    rfl
  have hunused : (if unique then used.lookup a.name.text else none) = none := by
    rw [hu, ite_self]
  unfold scanAssignment
  simp only [Text.takeWhile_append_of_head? hname hstop, Text.dropWhile_append_of_head? hname hstop]
  rw [List.dropWhile_cons]
  simp only [show Text.isBlank '=' = false from rfl, Bool.false_eq_true, if_false]
  rw [← PlainName.letters, ← PlainName.text, hunused]
  exact a.scanValue_written ..

end PlainAttribute

theorem assignmentsFrom_nil (unique : Bool) (used : List (String × Nat)) (offset : Nat) :
    assignmentsFrom unique used offset [] = [] := by
  rw [assignmentsFrom]
  rfl

theorem assignmentsFrom_space {c : Char} (hc : Text.isBlank c = false) (unique : Bool)
    (used : List (String × Nat)) (offset : Nat) (text : List Char) :
    ∃ start, assignmentsFrom unique used offset (' ' :: c :: text) =
      let s := scanAssignment unique used start c text
      s.result :: assignmentsFrom unique s.used s.offset s.rest := by
  have hd : (' ' :: c :: text).dropWhile Text.isBlank = c :: text := by
    rw [List.dropWhile_cons, if_pos (show Text.isBlank ' ' = true from rfl), List.dropWhile_cons,
      hc, if_neg Bool.false_ne_true]
  rw [assignmentsFrom]
  split
  · rename_i h
    rw [hd] at h
    contradiction
  · rename_i d body h
    rw [hd] at h
    cases h
    exact ⟨_, rfl⟩

/-- Attributes of different names are read one after the other, whether or not names have to be
unique. -/
theorem assignmentsFrom_written (unique : Bool) (used : List (String × Nat)) (offset : Nat)
    (attributes : List PlainAttribute) (hn : (attributes.map (·.name.text)).Nodup)
    (hu : ∀ a ∈ attributes, used.lookup a.name.text = none) :
    assignmentsFrom unique used offset (attributes.flatMap (·.written)) =
      (attributes.map (·.assignment)).map .ok := by
  induction attributes generalizing used offset with
  | nil => exact assignmentsFrom_nil ..
  | cons a attributes ih =>
    rw [List.map_cons, List.nodup_cons] at hn
    have hfirst : Text.isBlank a.name.first = false :=
      isBlank_of_isNameChar (a.name.isNameChar_of_mem List.mem_cons_self)
    have hwritten : a.written ++ attributes.flatMap (·.written) = ' ' :: a.name.first ::
        (a.name.others ++ '=' :: '"' :: (escape a.value ++ '"' :: attributes.flatMap (·.written))) := by
      simp [PlainAttribute.written, PlainName.letters]
    obtain ⟨start, hstart⟩ := assignmentsFrom_space hfirst unique used offset
      (a.name.others ++ '=' :: '"' :: (escape a.value ++ '"' :: attributes.flatMap (·.written)))
    obtain ⟨offset', hscan⟩ := a.scanAssignment_written unique
      (hu a List.mem_cons_self) start (attributes.flatMap (·.written))
    -- the names that follow are neither used before nor the one just read
    have hrest : ∀ b ∈ attributes,
        ((a.name.text, start) :: used).lookup b.name.text = none := by
      intro b hb
      have hne : (b.name.text == a.name.text) = false := by
        rw [beq_eq_false_iff_ne]
        intro he
        exact hn.1 (he ▸ List.mem_map_of_mem hb)
      rw [List.lookup_cons, hne]
      exact hu b (List.mem_cons_of_mem a hb)
    rw [List.flatMap_cons, hwritten, hstart, hscan]
    simp only [List.map_cons]
    rw [ih _ _ hn.2 hrest]

theorem wellFormed_map_ok (as : List Assignment) :
    wellFormed (as.map Except.ok) = as := by
  induction as with
  | nil => rfl
  | cons a as ih => rw [List.map_cons, wellFormed, ih]

theorem foldlM_declare_plain (scope : Scope) (attributes : List PlainAttribute)
    (hd : ∀ a ∈ attributes, a.name.text ≠ "xmlns") :
    (attributes.map (·.assignment)).foldlM declare scope = .ok scope := by
  induction attributes with
  | nil => rfl
  | cons a attributes ih =>
    have ha : declare scope a.assignment = .ok scope := by
      unfold declare
      rw [PlainAttribute.assignment, a.name.declaredQualifier?_text (hd a List.mem_cons_self)]
    rw [List.map_cons, List.foldlM_cons, ha]
    exact ih fun b hb => hd b (List.mem_cons_of_mem a hb)

/-! ## Tags -/

namespace PlainTag

variable (tag : PlainTag)

theorem passes_written : Passes tag.written := by
  refine tag.name.passes_letters.append ?_
  induction tag.attributes with
  | nil => exact .nil
  | cons a attributes ih => exact a.passes_written.append ih

/-- The attributes of a tag begin behind a space. -/
theorem isBlank_head?_attributes :
    ∀ c ∈ (tag.attributes.flatMap (·.written)).head?, (!Text.isBlank c) = false := by
  cases tag.attributes with
  | nil => simp
  | cons a attributes =>
    rintro c ⟨⟩
    rfl

theorem nameOf_written : nameOf tag.written = tag.name.letters :=
  Text.takeWhile_append_of_head? (fun _ => tag.name.notBlank_of_mem) tag.isBlank_head?_attributes

theorem attributesOf_written : attributesOf tag.written = tag.attributes.flatMap (·.written) :=
  Text.dropWhile_append_of_head? (fun _ => tag.name.notBlank_of_mem) tag.isBlank_head?_attributes

theorem assignmentsFrom_attributesOf (unique : Bool) (offset : Nat) :
    assignmentsFrom unique [] offset (attributesOf tag.written) =
      (tag.attributes.map (·.assignment)).map .ok := by
  rw [tag.attributesOf_written]
  exact assignmentsFrom_written unique [] offset _ tag.nodup_names fun _ _ => rfl

theorem enterScope_attributesOf (scope : Scope) :
    enterScope scope (attributesOf tag.written) = .ok scope := by
  rw [enterScope, tag.assignmentsFrom_attributesOf, wellFormed_map_ok]
  exact foldlM_declare_plain scope _ tag.ne_xmlns

/-- The tag where nothing is declared. -/
def toOpenTag : OpenTag := ⟨tag.name.letters, []⟩

def toTag : Tag := ⟨tag.name.letters, .ok none⟩

theorem resolved_toOpenTag : tag.toOpenTag.resolved = tag.toTag := by
  rw [OpenTag.resolved, toOpenTag, tag.name.splitName_letters]
  rfl

theorem ofContent_written : OpenTag.ofContent [] tag.written = .ok tag.toOpenTag := by
  unfold OpenTag.ofContent
  simp only [tag.nameOf_written, tag.enterScope_attributesOf]
  rfl

theorem elementName_toTag : tag.toTag.elementName none = .plain tag.name.text := by
  rw [Tag.elementName, toTag, tag.name.splitName_letters]
  rfl

theorem outcomesOf_written :
    outcomesOf tag.written = tag.attributes.map fun a => .kept a.toAttribute := by
  unfold outcomesOf
  simp only
  rw [tag.assignmentsFrom_attributesOf, List.map_map, List.map_map]
  refine List.map_congr_left fun a ha => ?_
  rw [Function.comp_apply, Function.comp_apply, outcomeOf, PlainAttribute.assignment,
    a.name.declaredQualifier?_text (tag.ne_xmlns a ha), Option.isSome_none,
    if_neg Bool.false_ne_true, unescape_escape]
  rfl

theorem startEvents_written (p : Position) :
    startEvents tag.toTag tag.written p = [.moveTo p, tag.start] := by
  have hproblems : problemsOf (outcomesOf tag.written) = [] := by
    rw [outcomesOf_written, problemsOf, List.filterMap_map]
    exact List.filterMap_eq_nil_iff.2 fun _ _ => rfl
  have hkept : keptOf (outcomesOf tag.written) = ⟨tag.attributes.map (·.toAttribute)⟩ := by
    rw [outcomesOf_written, keptOf, List.filterMap_map]
    exact congrArg Attributes.mk (congrFun List.filterMap_eq_map _)
  rw [startEvents_declared rfl, hproblems, hkept, tag.elementName_toTag]
  rfl

theorem endEvents_toTag : endEvents tag.toTag = [tag.stop] := by
  rw [endEvents_declared rfl, tag.elementName_toTag]
  rfl

/-! ### The brackets -/

theorem getLast?_written : tag.written.getLast? ≠ some '/' := by
  suffices h : ∀ text : List Char, text.getLast? ≠ some '/' →
      (text ++ tag.attributes.flatMap (·.written)).getLast? ≠ some '/' by
    refine h tag.name.letters fun hlast => ?_
    exact tag.name.notMem_letters rfl (List.mem_of_getLast? hlast)
  -- every attribute ends with a quotation mark
  induction tag.attributes with
  | nil =>
    intro text ht
    rwa [List.flatMap_nil, List.append_nil]
  | cons a attributes ih =>
    intro text ht
    have hend : text ++ a.written =
        text ++ ' ' :: (a.name.letters ++ '=' :: '"' :: escape a.value) ++ ['"'] := by
      simp [PlainAttribute.written]
    rw [List.flatMap_cons, ← List.append_assoc]
    refine ih _ ?_
    rw [hend, List.getLast?_concat]
    decide

end PlainTag

theorem scanMarkup_of_isNameChar {c : Char} (hc : isNameChar c = true) (text : List Char) :
    scanMarkup (c :: text) = scanTag (c :: text) := by
  have hbang := ne_of_isNameChar (d := '!') hc rfl
  have hquestion := ne_of_isNameChar (d := '?') hc rfl
  unfold scanMarkup
  split <;> simp_all

namespace PlainTag

variable (tag : PlainTag)

/-- What follows the opening bracket of a plain tag is read as a tag that opens an element. -/
theorem scanMarkup_written (text : List Char) :
    scanMarkup (tag.written ++ text) = scanTag (tag.written ++ text) :=
  scanMarkup_of_isNameChar (tag.name.isNameChar_of_mem List.mem_cons_self) _

theorem written_append_ne_slash_cons (text name : List Char) :
    tag.written ++ text ≠ '/' :: name := by
  intro h
  have hmem : '/' ∈ tag.name.letters := (List.cons.inj h).1 ▸ List.mem_cons_self
  exact tag.name.notMem_letters rfl hmem

theorem scan_startTag (rest : List Char) :
    ∃ width, scan '<' (tag.written ++ '>' :: rest) = .ok ⟨.startTag tag.written, width, rest⟩ := by
  -- no slash comes first, so this is not the tag of an end
  have hfirst (name : List Char) : tag.written ≠ '/' :: name :=
    List.append_nil tag.written ▸ tag.written_append_ne_slash_cons [] name
  have hlast : (tag.written.getLast? == some '/') = false :=
    beq_eq_false_iff_ne.2 tag.getLast?_written
  rw [scan, if_pos (beq_self_eq_true '<'), tag.scanMarkup_written, scanTag,
    cutTag_append tag.passes_written]
  simp only [hlast]
  exact ⟨_, rfl⟩

theorem scan_emptyTag (rest : List Char) :
    ∃ width, scan '<' (tag.written ++ '/' :: '>' :: rest) =
      .ok ⟨.emptyTag tag.written, width, rest⟩ := by
  have hslash : Passes ['/'] := .singleton (by decide) rfl
  have hcut : cutTag (tag.written ++ '/' :: '>' :: rest) = some (tag.written ++ ['/'], rest) := by
    rw [← cutTag_append (tag.passes_written.append hslash), List.append_assoc,
      List.singleton_append]
  have hfirst := tag.written_append_ne_slash_cons ['/']
  rw [scan, if_pos (beq_self_eq_true '<'), tag.scanMarkup_written, scanTag, hcut]
  simp only [List.getLast?_concat, List.dropLast_concat]
  exact ⟨_, rfl⟩

end PlainTag

theorem PlainName.scan_endTag (name : PlainName) (rest : List Char) :
    ∃ width, scan '<' ('/' :: (name.letters ++ '>' :: rest)) =
      .ok ⟨.endTag name.letters, width, rest⟩ := by
  have hslash : Passes ['/'] := .singleton (by decide) rfl
  have hcut : cutTag ('/' :: (name.letters ++ '>' :: rest)) = some ('/' :: name.letters, rest) :=
    cutTag_append (hslash.append name.passes_letters) rest
  have hmarkup (text : List Char) : scanMarkup ('/' :: text) = scanTag ('/' :: text) := rfl
  rw [scan, if_pos (beq_self_eq_true '<'), hmarkup, scanTag, hcut]
  simp only [name.endTagName_letters]
  exact ⟨_, rfl⟩

end DocRules.Markup
