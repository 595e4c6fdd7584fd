import Mathlib
import DocRules.Proofs.AllOrNothing
import DocRules.Proofs.DispatchVisit
import DocRules.Proofs.DocumentTree
import DocRules.Proofs.Registration
import DocRules.Trace

/-! # A trace shows the elements that remain

The action that makes a trace keeps the depth in the workspace, adding one at a start and taking one
off at an end. That this is the number of elements around the tag holds because every element it
opens it also closes: the lines of a document that is read without a fatal report are those of the
elements that remain of it, two for each, and the problems after them are the reports of reading. -/

namespace DocRules

/-! ## The lines of elements -/

/-- A line of a trace: the number of the line of the document, right-aligned in five columns, then
a blank and two more for each element around, then the tag. -/
def tracedLine (p : Position) (depth : Nat) (tag : String) : String :=
  .ofList (List.leftpad 5 ' ' (toString p.line).toList ++
    ' ' :: (List.replicate (2 * depth) ' ' ++ tag.toList))

def tracedStart (tag : String) (attributes : Attributes) : String :=
  "<" ++ tag ++
    .join (attributes.toList.map fun a => " " ++ a.name ++ "=\"" ++ a.value ++ "\"") ++ ">"

def tracedEnd (tag : String) : String := "</" ++ tag ++ ">"

mutual
/-- The lines of an element with `depth` elements around it: the content stands between the lines of
the two tags, one element deeper. -/
def Element.traced (depth : Nat) : Element → List String
  | .mk name attributes opened closed content =>
    tracedLine opened depth (tracedStart name.tag attributes) ::
      (Forest.traced (depth + 1) content ++ [tracedLine closed depth (tracedEnd name.tag)])

def Forest.traced (depth : Nat) : List Element → List String
  | [] => []
  | e :: forest => e.traced depth ++ Forest.traced depth forest
end

namespace Trace

theorem toList_pushn (s : String) (c : Char) (n : Nat) :
    (s.pushn c n).toList = s.toList ++ List.replicate n c := by
  induction n with
  | zero => exact (List.append_nil _).symm
  | succ n ih =>
    change ((s.pushn c n).push c).toList = _
    rw [String.toList_push, ih, List.replicate_succ', List.append_assoc]

theorem line_eq_tracedLine (p : Position) (depth : Nat) (tag : String) :
    line p.line depth tag = tracedLine p depth tag := by
  rw [← String.toList_inj, tracedLine, String.toList_ofList, List.leftpad, String.length_toList]
  simp only [line, ToString.toString, String.toList_append, toList_pushn]
  simp

section Calls

variable (w : Workspace Nat) (p : Position) (tag : String) (attributes : Attributes)

theorem lineOf?_start :
    lineOf? (.start () tag attributes (w.moveTo p)) =
      some (tracedLine p (depthOf w) (tracedStart tag attributes)) :=
  congrArg some (line_eq_tracedLine p (depthOf w) _)

theorem lineOf?_stop :
    lineOf? (.stop () tag (w.moveTo p)) =
      some (tracedLine p (depthOf w - 1) (tracedEnd tag)) :=
  congrArg some (line_eq_tracedLine p (depthOf w - 1) _)

end Calls

/-- Only calls for tags leave a line. -/
theorem filterMap_lineOf?_ofTag (calls : List (Call Unit Nat)) :
    (calls.filter Call.ofTag).filterMap lineOf? = calls.filterMap lineOf? := by
  rw [List.filterMap_filter]
  refine List.filterMap_congr fun c _ => ?_
  cases c <;> rfl

/-! ## Following elements -/

@[simp]
theorem depthOf_put (w : Workspace Nat) (depth : Nat) : depthOf (w.put depthKey depth) = depth := by
  rw [depthOf, Workspace.get?, Workspace.put, Table.get?_insert, if_pos rfl]
  rfl

/-- What a visit that follows every element comes to: the lines, and apart from them nothing but
positions. -/
structure Follows (w : Workspace Nat) (v : Visit Unit Nat) (lines : List String) : Prop where
  mode : v.mode = .active
  depth : depthOf v.workspace = depthOf w
  log : v.workspace.log = w.log
  lines : v.calls.filterMap lineOf? = lines

theorem resolve_follow (path : Path) (attributes : Attributes) (w : Workspace Nat) :
    resolve (fun _ : Unit => follow) .empty [()] path attributes w = some [()] := by
  rw [resolve, RuleBook.actionsAt?_empty]
  rfl

/-- The workspace in which the content of an element is visited. -/
def inside (w : Workspace Nat) (opened : Position) : Workspace Nat :=
  (w.moveTo opened).put depthKey (depthOf w + 1)

theorem endVisit_follow {inner : Visit Unit Nat} (hi : inner.mode = .active) (u : Workspace Nat)
    (calls : List (Call Unit Nat)) (tag : String) (closed : Position) :
    endVisit (fun _ : Unit => follow) tag [()] closed ⟨u, .proceed, calls⟩ inner =
      ⟨(inner.workspace.moveTo closed).put depthKey (depthOf inner.workspace - 1), .active,
        calls ++ inner.calls ++ [.stop () tag (inner.workspace.moveTo closed)]⟩ := by
  rw [endVisit, hi]
  rfl

/-- The two tags of an element put their lines around those of its content and leave the depth as it
was. -/
theorem follows_endVisit {w : Workspace Nat} {opened : Position} {inner : Visit Unit Nat}
    {lines : List String} (h : Follows (inside w opened) inner lines) (tag : String)
    (attributes : Attributes) (closed : Position) :
    Follows w
      (endVisit (fun _ => follow) tag [()] closed
        ⟨inside w opened, .proceed, [.start () tag attributes (w.moveTo opened)]⟩ inner)
      (tracedLine opened (depthOf w) (tracedStart tag attributes) ::
        (lines ++ [tracedLine closed (depthOf w) (tracedEnd tag)])) := by
  have hdepth : depthOf inner.workspace - 1 = depthOf w := by
    rw [h.depth, inside, depthOf_put, Nat.add_sub_cancel]
  rw [endVisit_follow h.mode]
  -- the content has left the depth as its start did, so the end finds it one deeper than `w`
  refine ⟨rfl, ?_, h.log, ?_⟩
  · rw [depthOf_put, hdepth]
  · have hstop := lineOf?_stop inner.workspace closed tag
    rw [hdepth] at hstop
    rw [List.filterMap_append, List.filterMap_append, h.lines,
      List.filterMap_cons_some (lineOf?_start w opened tag attributes),
      List.filterMap_cons_some hstop]
    rfl

theorem Follows.append {w : Workspace Nat} {first others : Visit Unit Nat}
    {before after : List String} (hf : Follows w first before)
    (ho : Follows first.workspace others after) :
    Follows w ⟨others.workspace, others.mode, first.calls ++ others.calls⟩
      (before ++ after) where
  mode := ho.mode
  depth := ho.depth.trans hf.depth
  log := ho.log.trans hf.log
  lines := by rw [List.filterMap_append, hf.lines, ho.lines]

mutual
theorem follows_element (path : Path) : ∀ (e : Element) (w : Workspace Nat),
    Follows w (visit (fun _ => follow) .empty [()] path .active w e) (e.traced (depthOf w))
  | .mk name attributes opened closed content, w => by
    have hcontent := follows_forest (path.push name.tag) content (inside w opened)
    rw [inside, depthOf_put, ← inside] at hcontent
    rw [visit_active (resolve_follow _ _ _), Element.traced]
    exact follows_endVisit hcontent name.tag attributes closed

/-- Visiting elements with the action that follows every one leaves their lines, and the depth, the
log and the mode as they were. -/
theorem follows_forest (path : Path) : ∀ (forest : List Element) (w : Workspace Nat),
    Follows w (visitAll (fun _ => follow) .empty [()] path .active w forest)
      (Forest.traced (depthOf w) forest)
  | [], _ => ⟨rfl, rfl, rfl, rfl⟩
  | e :: forest, w => by
    have hfirst := follows_element path e w
    have hothers := follows_forest path forest
      (visit (fun _ => follow) .empty [()] path .active w e).workspace
    rw [hfirst.depth] at hothers
    rw [visitAll, hfirst.mode]
    exact hfirst.append hothers
end

/-! ## Dispatching and running -/

theorem endDocument_follow (d : Dispatcher Unit Nat) :
    (d.handleAll (fun _ => follow) [.endDocument]).1 = d ∧
      (d.handleAll (fun _ => follow) [.endDocument]).2.filterMap lineOf? = [] := by
  have hfinish (actions : List Unit) :
      Dispatcher.runFinishes (fun _ => follow) d.workspace actions =
        (d.workspace, actions.map fun a => .finish a d.workspace) := by
    induction actions with
    | nil => rfl
    | cons a actions ih => exact congrArg (fun r => (r.1, Call.finish a d.workspace :: r.2)) ih
  rw [Dispatcher.handleAll_cons, Dispatcher.handle, Dispatcher.endDocument, hfinish,
    Dispatcher.handleAll_nil, List.append_nil, List.filterMap_map]
  exact ⟨rfl, List.filterMap_eq_nil_iff.2 fun _ _ => rfl⟩

/-- Dispatching the elements as a document leaves their lines, and the log as it was. -/
theorem dispatch_follow (w : Workspace Nat) (forest : Forest) :
    let run := (Dispatcher.ofRules .empty [()] w).handleAll (fun _ => follow)
      (.startDocument :: (forest.events ++ [.endDocument]))
    run.2.filterMap lineOf? = Forest.traced (depthOf w) forest ∧ run.1.workspace.log = w.log := by
  intro run
  let before := (Dispatcher.ofRules .empty [()] w).handleAll (fun _ => follow) forest.events
  have hrun : run = ((before.1.handleAll (fun _ => follow) [.endDocument]).1,
      before.2 ++ (before.1.handleAll (fun _ => follow) [.endDocument]).2) :=
    Dispatcher.handleAll_append _ _ _ _
  obtain ⟨hend, hnone⟩ := endDocument_follow before.1
  obtain ⟨hstate, hcalls⟩ := Dispatcher.contentAgrees (fun _ : Unit => follow) forest _
    (Dispatcher.wellNested_ofRules .empty [()] w)
  have hfollows := follows_forest .empty forest w
  rw [hrun, hend]
  constructor
  · rw [List.filterMap_append, hnone, List.append_nil, ← filterMap_lineOf?_ofTag]
    exact (congrArg (List.filterMap lineOf?) hcalls).trans hfollows.lines
  · exact (congrArg (fun d => d.workspace.log) hstate).trans hfollows.log

section Documents

variable {settings : Settings} {stream : Stream} {text : String}

/-- A document with a fatal problem leaves no line, only its problems and that it was given up. -/
theorem ofFile_of_fatal (path : String) (hb : stream.contents = .ok (Text.utf8 text.toList))
    (h : ∃ d, Event.report .fatal d ∈ Markup.readDocument settings.reading.trim text) :
    ofFile settings path (.ok stream) =
      ⟨problems (reportItems (Markup.readDocument settings.reading.trim text) ++
        [.ofMessage .error abandonMessage]), false⟩ := by
  have hrun := (sessionOf settings).runStream_of_text (fun _ => follow) hb
  have hdone := (sessionOf settings).abandons_of_fatal (fun _ => follow) text h
  obtain ⟨first, -, houtcome⟩ := hdone.outcome
  rw [ofFile, Session.runFile]
  simp only [hrun]
  rw [hdone.calls, hdone.workspace.log, houtcome]
  rfl

/-- The lines of a document are those of the elements that remain. -/
theorem ofFile_of_document (path : String) (hb : stream.contents = .ok (Text.utf8 text.toList))
    (h : ∀ d, Event.report .fatal d ∉ Markup.readDocument settings.reading.trim text)
    {nodes : List Markup.Node} (hd : Markup.IsDocument settings.reading.trim text nodes) :
    ofFile settings path (.ok stream) =
      ⟨Forest.traced 0 (Markup.remainingAll settings.reading
          (Text.utf8 (Markup.dropByteOrderMark text.toList)) nodes) ++
        problems (reportItems (Markup.readDocument settings.reading.trim text)), true⟩ := by
  have hrun := (sessionOf settings).runStream_of_text (fun _ => follow) hb
  have hdone := (sessionOf settings).completes_of_no_fatal (fun _ => follow) text h
  obtain ⟨recorded, w, hreplay, hseeded, hpair⟩ := hdone.dispatched
  have hrecorded := Recording.replay_handleAll settings.reading h
  rw [Markup.retell_readDocument hd] at hrecorded
  obtain rfl := Except.ok.inj (hrecorded.symm.trans hreplay)
  obtain ⟨hlines, hlog⟩ := dispatch_follow w
    (Markup.remainingAll settings.reading (Text.utf8 (Markup.dropByteOrderMark text.toList)) nodes)
  obtain ⟨hworkspace, hcalls⟩ := Prod.mk.inj hpair
  have hdepth : depthOf w = 0 := by
    rw [depthOf, Workspace.get?, hseeded.objects]
    rfl
  rw [hdepth] at hlines
  rw [ofFile, Session.runFile]
  simp only [hrun]
  rw [hdone.outcome, hworkspace, hcalls]
  exact congrArg₂ (fun lines log => Report.mk (lines ++ problems log) true) hlines
    (hlog.trans hseeded.log)

end Documents

/-! ## Tracing -/

/-- The arguments name a document and valid settings. -/
inductive Names (openFile : String → Except String Stream) :
    List String → String → Settings → Prop where
  | standard (path : String) : Names openFile [path] path .standard
  | given (path settingsPath : String) (settings : Settings) :
      settingsOf? (openFile settingsPath) = some settings →
      Names openFile [path, settingsPath] path settings

theorem Names.ofArguments_eq {openFile : String → Except String Stream} {arguments : List String}
    {path : String} {settings : Settings} (h : Names openFile arguments path settings) :
    ofArguments arguments openFile = ofFile settings path (openFile path) := by
  cases h with
  | standard => rfl
  | given _ _ _ hs => rw [ofArguments, hs]

/-- Where reading reports nothing fatal, the text is a document, and its trace succeeds and consists
of the lines of the elements that remain and of the problems reported. Otherwise there are only the
lines of the problems, and the trace fails. -/
theorem ofArguments_traced {openFile : String → Except String Stream} {arguments : List String}
    {path : String} {settings : Settings} {stream : Stream} {text : String}
    (hn : Names openFile arguments path settings) (ho : openFile path = .ok stream)
    (hb : stream.contents = .ok (Text.utf8 text.toList)) :
    let events := Markup.readDocument settings.reading.trim text
    let bytes := Text.utf8 (Markup.dropByteOrderMark text.toList)
    ((∀ d, Event.report .fatal d ∉ events) →
      (∃ nodes, Markup.IsDocument settings.reading.trim text nodes) ∧
      ∀ nodes, Markup.IsDocument settings.reading.trim text nodes →
        ofArguments arguments openFile =
          ⟨Forest.traced 0 (Markup.remainingAll settings.reading bytes nodes) ++
            problems (reportItems events), true⟩) ∧
    ((∃ d, Event.report .fatal d ∈ events) →
      ofArguments arguments openFile =
        ⟨problems (reportItems events ++ [.ofMessage .error abandonMessage]), false⟩) := by
  intro events bytes
  rw [hn.ofArguments_eq, ho]
  refine ⟨fun h => ⟨Markup.exists_isDocument h, fun nodes hd => ?_⟩, fun h => ?_⟩
  · exact ofFile_of_document path hb h hd
  · exact ofFile_of_fatal path hb h

/-- A document with an element whose qualifier is undeclared and whose content moves up, and one in
a foreign namespace. -/
def splicedText : String := "<a>\n<q:b><c x='1'/></q:b><d xmlns='u'/></a>"

def splicedNodes : List Markup.Node :=
  [.mk ⟨['a'], []⟩ ['a'] 3 43
    [.mk ⟨['q', ':', 'b'], []⟩ ['q', ':', 'b'] 9 25 [.mk ⟨['c'], []⟩ "c x='1'".toList 19 19 []],
    .mk ⟨['d'], [("", "u")]⟩ "d xmlns='u'".toList 39 39 []]]

theorem readDocument_spliced : Markup.readDocument true splicedText =
    [.startDocument, .moveTo ⟨1, 4⟩, .startElement ⟨none, "a", "a"⟩ ⟨[]⟩, .moveTo ⟨2, 6⟩,
      .report .error ⟨"The prefix \"q\" for element \"q:b\" is not bound.", ⟨2, 6⟩⟩,
      .moveTo ⟨2, 16⟩, .startElement ⟨none, "c", "c"⟩ ⟨[⟨"x", "1"⟩]⟩,
      .endElement ⟨none, "c", "c"⟩, .moveTo ⟨2, 22⟩, .moveTo ⟨2, 36⟩,
      .startElement ⟨some "u", "d", "d"⟩ ⟨[]⟩, .endElement ⟨some "u", "d", "d"⟩,
      .moveTo ⟨2, 40⟩, .endElement ⟨none, "a", "a"⟩, .endDocument] := by
  cbv

theorem isDocument_spliced : Markup.IsDocument true splicedText splicedNodes := by
  have hlexemes : Markup.lexemes true
      (Markup.dropByteOrderMark (Markup.dropByteOrderMark splicedText.toList)) =
        .next 0 3 (.startTag ['a']) (.next 4 9 (.startTag ['q', ':', 'b'])
          (.next 9 19 (.emptyTag "c x='1'".toList) (.next 19 25 (.endTag ['q', ':', 'b'])
            (.next 25 39 (.emptyTag "d xmlns='u'".toList)
              (.next 39 43 (.endTag ['a']) (.eof 43)))))) := by
    cbv
  refine ⟨43, ?_⟩
  rw [hlexemes]
  exact .pair _ _ 39 _ (by cbv)
    (.pair _ _ 19 _ (by cbv)
      (.single _ _ (by cbv) (.nil _ _))
      (.single _ _ (by cbv) (.nil _ _)))
    (.nil _ _)

theorem remainingAll_spliced :
    Markup.remainingAll .standard (Text.utf8 (Markup.dropByteOrderMark splicedText.toList))
        splicedNodes =
      [.mk ⟨some log4jSpace, "a", "a"⟩ ⟨[]⟩ ⟨1, 4⟩ ⟨2, 40⟩
        [.mk ⟨some log4jSpace, "c", "c"⟩ ⟨[⟨"x", "1"⟩]⟩ ⟨2, 16⟩ ⟨2, 16⟩ []]] := by
  have hforeign : (Markup.OpenTag.resolved ⟨['d'], [("", "u")]⟩).remaining? .standard = none := by
    decide
  simp only [splicedNodes, Markup.remainingAll, Markup.Node.remaining, hforeign]
  cbv

theorem ofArguments_traced_spliced :
    let stream : Stream := [.bytes (Text.utf8 splicedText.toList)]
    let openFile : String → Except String Stream := fun _ => .ok stream
    Names openFile ["d.xml"] "d.xml" .standard ∧
      stream.contents = .ok (Text.utf8 splicedText.toList) ∧
      ofArguments ["d.xml"] openFile =
        ⟨["    1 <a>", "    2   <c x=\"1\">", "    2   </c>", "    2 </a>", "",
          "1 problem(s) reported:", "  ERROR Parsing error (line 2, column 6): " ++
            "The prefix \"q\" for element \"q:b\" is not bound."], true⟩ := by
  intro stream openFile
  have hn : Names openFile ["d.xml"] "d.xml" .standard := .standard "d.xml"
  have hb : stream.contents = .ok (Text.utf8 splicedText.toList) :=
    congrArg Except.ok (List.append_nil _)
  have hnone : ∀ d, Event.report .fatal d ∉ Markup.readDocument true splicedText := by
    rw [readDocument_spliced]
    simp
  have htraced := ((ofArguments_traced hn rfl hb).1 hnone).2 splicedNodes isDocument_spliced
  refine ⟨hn, hb, htraced.trans ?_⟩
  have hitems : reportItems (Markup.readDocument true splicedText) =
      [.ofReport .error ⟨"The prefix \"q\" for element \"q:b\" is not bound.", ⟨2, 6⟩⟩] := by
    rw [readDocument_spliced]
    rfl
  change Report.mk (Forest.traced 0 (Markup.remainingAll .standard _ splicedNodes) ++
    problems (reportItems (Markup.readDocument true splicedText))) true = _
  rw [remainingAll_spliced, hitems]
  cbv

end Trace

end DocRules
