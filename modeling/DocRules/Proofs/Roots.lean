import Mathlib
import DocRules.Proofs.DocumentTree
import DocRules.Proofs.Halting

/-! # The outermost elements of a document

A document is read to its end just if its tags pair up and there is an element at all. The number of
outermost elements is the number of tags that begin one while none is open. One of them is needed, but
a second one is read like the first. -/

namespace DocRules.Markup

/-- The number of tags that begin an element while none is open, if `depth` elements are open before
the first lexeme. -/
def Lexemes.topTags (depth : Nat) : Lexemes → Nat
  | .eof _ | .fault _ _ => 0
  | .next _ _ lexeme rest =>
    match lexeme with
    | .startTag _ => (if depth = 0 then 1 else 0) + rest.topTags (depth + 1)
    | .emptyTag _ => (if depth = 0 then 1 else 0) + rest.topTags depth
    | .endTag _ => rest.topTags (depth - 1)
    | .doctype _ | .silent => rest.topTags depth

/-- The number of elements that are open behind the last lexeme. -/
def Lexemes.finalDepth (depth : Nat) : Lexemes → Nat
  | .eof _ | .fault _ _ => depth
  | .next _ _ lexeme rest =>
    match lexeme with
    | .startTag _ => rest.finalDepth (depth + 1)
    | .endTag _ => rest.finalDepth (depth - 1)
    | .emptyTag _ | .doctype _ | .silent => rest.finalDepth depth

/-! ## Elements -/

section Spells

variable {scope : Scope} {nodes : List Node} {lexemes rest : Lexemes}

/-- Of the tags of elements next to each other just those that begin one of them are outermost. -/
theorem Spells.topTags_eq (h : Spells scope nodes lexemes rest) (depth : Nat) :
    lexemes.topTags depth = (if depth = 0 then nodes.length else 0) + rest.topTags depth := by
  induction h generalizing depth with
  | nil => simp
  | silent _ _ _ ih => exact ih depth
  | doctype _ _ _ _ ih => exact ih depth
  | single _ _ _ _ ih =>
    rw [Lexemes.topTags, ih depth, List.length_cons]
    split <;> omega
  | pair _ _ _ _ _ _ _ ihin ihnext =>
    rw [Lexemes.topTags, ihin (depth + 1), if_neg (Nat.succ_ne_zero depth), Lexemes.topTags,
      Nat.add_sub_cancel, ihnext depth, List.length_cons]
    split <;> omega

theorem Spells.finalDepth_eq (h : Spells scope nodes lexemes rest) (depth : Nat) :
    lexemes.finalDepth depth = rest.finalDepth depth := by
  induction h generalizing depth with
  | nil => rfl
  | silent _ _ _ ih => exact ih depth
  | doctype _ _ _ _ ih => exact ih depth
  | single _ _ _ _ ih => exact ih depth
  | pair _ _ _ _ _ _ _ ihin ihnext =>
    rw [Lexemes.finalDepth, ihin (depth + 1), Lexemes.finalDepth, Nat.add_sub_cancel, ihnext depth]

end Spells

/-! ## Documents -/

/-- The last event of a document is its end or a fatal report, and neither comes before. -/
theorem readDocument_last {trim : Bool} {text : String} {before : List Event} {last : Event}
    (h : readDocument trim text = before ++ [last]) :
    .endDocument ∉ before ∧ (∀ d, .report .fatal d ∉ before) ∧
      (last = .endDocument ∨ ∃ d, last = .report .fatal d) := by
  obtain ⟨inner, final, left, he, hinner, -, hfinal⟩ := readTokens_framed
    (Text.utf8 (dropByteOrderMark text.toList))
    (nested_tokens trim (dropByteOrderMark text.toList))
  have hread : readDocument trim text = (.startDocument :: inner) ++ [final] := he
  obtain ⟨rfl, hlast⟩ := List.append_inj' (h.symm.trans hread) rfl
  obtain rfl := List.singleton_inj.1 hlast
  have hbefore : ∀ e ∈ .startDocument :: inner, e = .startDocument ∨ e.isInner = true :=
    fun e he => (List.mem_cons.1 he).imp_right (hinner e)
  refine ⟨fun hm => ?_, fun d hm => ?_, hfinal.imp_left And.left⟩
  · rcases hbefore _ hm with h | h <;> contradiction
  · rcases hbefore _ hm with h | h <;> contradiction

theorem exists_readDocument_last (trim : Bool) (text : String) :
    ∃ before last, readDocument trim text = before ++ [last] :=
  ⟨_, _, (List.dropLast_concat_getLast (List.cons_ne_nil _ _)).symm⟩

theorem endDocument_mem_iff {trim : Bool} {text : String} {before : List Event} {last : Event}
    (h : readDocument trim text = before ++ [last]) :
    .endDocument ∈ readDocument trim text ↔ last = .endDocument := by
  rw [h, List.mem_append, List.mem_singleton, eq_comm]
  exact or_iff_right (readDocument_last h).1

/-- A text with these elements is read to its end just if there are any. -/
theorem IsDocument.endDocument_mem_iff {trim : Bool} {text : String} {nodes : List Node}
    (h : IsDocument trim text nodes) : .endDocument ∈ readDocument trim text ↔ nodes ≠ [] := by
  obtain ⟨stop, hspells⟩ := h
  have hcounts := Position.Cursor.counts_ofBytes (Text.utf8 (dropByteOrderMark text.toList))
  obtain ⟨told, next, he, htells, hr⟩ := hspells.tells .standard
    (r := .ofDocument (dropByteOrderMark text.toList)) rfl hcounts
  obtain ⟨last, hhalts, hlast⟩ := next.halts_eof stop
  have hread : readDocument trim text = (.startDocument :: told) ++ [last] := by
    rw [← hlast]
    exact congrArg (Event.startDocument :: ·) he
  rw [Markup.endDocument_mem_iff hread]
  cases hhalts with
  | complete offset hseen _ =>
    rw [hseen] at hr
    cases nodes with
    | nil => contradiction
    | cons node nodes => simp
  | noRoot offset hseen =>
    rw [hseen] at hr
    cases nodes with
    | nil => simp
    | cons node nodes => contradiction
  | unclosed offset _ hopen => exact absurd htells.opened hopen

theorem IsDocument.topTags_eq {trim : Bool} {text : String} {nodes : List Node}
    (h : IsDocument trim text nodes) :
    (lexemes trim (dropByteOrderMark (dropByteOrderMark text.toList))).topTags 0 = nodes.length := by
  obtain ⟨stop, hspells⟩ := h
  exact hspells.topTags_eq 0

theorem IsDocument.finalDepth_eq {trim : Bool} {text : String} {nodes : List Node}
    (h : IsDocument trim text nodes) :
    (lexemes trim (dropByteOrderMark (dropByteOrderMark text.toList))).finalDepth 0 = 0 := by
  obtain ⟨stop, hspells⟩ := h
  exact hspells.finalDepth_eq 0

/-- What is read to its end is made of elements, at least one. -/
theorem exists_of_endDocument_mem {trim : Bool} {text : String}
    (h : .endDocument ∈ readDocument trim text) :
    ∃ nodes, IsDocument trim text nodes ∧ nodes ≠ [] := by
  obtain ⟨before, last, hread⟩ := exists_readDocument_last trim text
  have hlast := (endDocument_mem_iff hread).1 h
  have hfatal : ∀ d, .report .fatal d ∉ readDocument trim text := by
    intro d hd
    rw [hread, hlast, List.mem_append, List.mem_singleton] at hd
    exact hd.elim ((readDocument_last hread).2.1 d) (by simp)
  obtain ⟨nodes, hnodes⟩ := exists_isDocument hfatal
  exact ⟨nodes, hnodes, hnodes.endDocument_mem_iff.1 h⟩

/-- A document is read to its end just if its tags pair up to elements and there is at least one of
them; they are as many as the tags that begin an element while none is open. In all other cases the
last event is a fatal report, so also if no tag begins an element or if an element is left open. -/
theorem endDocument_iff_rooted (trim : Bool) (text : String) :
    let document := lexemes trim (dropByteOrderMark (dropByteOrderMark text.toList))
    (.endDocument ∈ readDocument trim text ↔ ∃ nodes, IsDocument trim text nodes ∧
      nodes.length = document.topTags 0 ∧ 1 ≤ document.topTags 0) ∧
    (.endDocument ∉ readDocument trim text ↔
      ∃ d, (readDocument trim text).getLast? = some (.report .fatal d)) ∧
    (document.topTags 0 = 0 ∨ 0 < document.finalDepth 0 →
      .endDocument ∉ readDocument trim text) := by
  intro document
  refine ⟨⟨fun h => ?_, ?_⟩, ?_, fun h hend => ?_⟩
  · obtain ⟨nodes, hnodes, hne⟩ := exists_of_endDocument_mem h
    have htags : document.topTags 0 = nodes.length := hnodes.topTags_eq
    exact ⟨nodes, hnodes, htags.symm, htags ▸ List.length_pos_iff.2 hne⟩
  · rintro ⟨nodes, hnodes, hlength, hpos⟩
    exact hnodes.endDocument_mem_iff.2 (List.ne_nil_of_length_pos (hlength ▸ hpos))
  · obtain ⟨before, last, hread⟩ := exists_readDocument_last trim text
    rw [endDocument_mem_iff hread, hread, List.getLast?_concat]
    rcases (readDocument_last hread).2.2 with rfl | ⟨d, rfl⟩ <;> simp
  · obtain ⟨nodes, hnodes, hne⟩ := exists_of_endDocument_mem hend
    rcases h with hnone | hopen
    · exact hne (List.length_eq_zero_iff.1 (hnodes.topTags_eq.symm.trans hnone))
    · exact Nat.ne_of_gt hopen hnodes.finalDepth_eq

/-- Two elements next to each other are read to the end. -/
theorem second_root_read :
    (lexemes true (dropByteOrderMark (dropByteOrderMark "<a/><b/>".toList))).topTags 0 = 2 ∧
      readDocument true "<a/><b/>" =
        [.startDocument, .moveTo ⟨1, 5⟩, .startElement ⟨none, "a", "a"⟩ ⟨[]⟩,
          .endElement ⟨none, "a", "a"⟩, .moveTo ⟨1, 9⟩, .startElement ⟨none, "b", "b"⟩ ⟨[]⟩,
          .endElement ⟨none, "b", "b"⟩, .endDocument] := by
  constructor <;> cbv

end DocRules.Markup
