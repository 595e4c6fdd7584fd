import DocRules.Dispatch
import DocRules.Proofs.Forest

/-! # Visiting elements

What the actions of a document come to, told by recursion on its elements. A visit knows no path of
an element at whose end to resume: whether actions are called is a mode that is handed from an
element to its content and from one sibling to the next. -/

namespace DocRules

variable {ι α : Type}

/-- Whether actions are called for the elements that come next. -/
inductive Mode where
  | active
  | suppressed
deriving DecidableEq

/-- What visiting elements comes to. The mode is that of the siblings that follow. -/
structure Visit (ι α : Type) where
  workspace : Workspace α
  mode : Mode
  calls : List (Call ι α)

/-- What calling the actions of an element for its start comes to. -/
structure Opening (ι α : Type) where
  workspace : Workspace α
  flow : Flow
  calls : List (Call ι α)

/-- The mode in which the content of an element is visited. -/
def Flow.contentMode : Flow → Mode
  | .proceed => .active
  | .skipChildren | .skipSiblings => .suppressed

def faultItem (w : Workspace α) (tag : String) (fault : Fault) : LogItem :=
  ⟨.error, s!"Exception in Action for tag <{tag}>", some fault.text, w.position⟩

def unmatchedItem (w : Workspace α) (path : Path) (tag : String) : LogItem :=
  ⟨.warning, s!"no applicable action for <{tag}>, current pattern is [{path}]", none, w.position⟩

section Evaluator

variable (behaviour : ι → Behaviour α) (rules : RuleBook ι) (fallbacks : List ι)

/-- The actions for the element at a path: those of the rules, else the first fallback that applies
to the element in the workspace at hand. -/
def resolve (path : Path) (attributes : Attributes) (w : Workspace α) : Option (List ι) :=
  (rules.actionsAt? path).or
    ((fallbacks.find? fun a => (behaviour a).applies path attributes w).map ([·]))

/-- Calls actions for the start of an element as long as they proceed. A failure is logged and
skips the content. -/
def openWith (tag : String) (attributes : Attributes) (w : Workspace α) : List ι → Opening ι α
  | [] => ⟨w, .proceed, []⟩
  | a :: actions =>
    let call := Call.start a tag attributes w
    match (behaviour a).start w tag attributes with
    | (w, .ok .proceed) =>
      let opening := openWith tag attributes w actions
      ⟨opening.workspace, opening.flow, call :: opening.calls⟩
    | (w, .ok flow) => ⟨w, flow, [call]⟩
    | (w, .error fault) => ⟨w.record (faultItem w tag fault), .skipChildren, [call]⟩

/-- Calls actions for the end of an element until one of them suppresses the siblings that follow,
as a failure does too. -/
def closeWith (tag : String) (w : Workspace α) : List ι → Visit ι α
  | [] => ⟨w, .active, []⟩
  | a :: actions =>
    let call := Call.stop a tag w
    match (behaviour a).stop w tag with
    | (w, .ok .skipSiblings) => ⟨w, .suppressed, [call]⟩
    | (w, .error fault) => ⟨w.record (faultItem w tag fault), .suppressed, [call]⟩
    | (w, .ok _) =>
      let closing := closeWith tag w actions
      ⟨closing.workspace, closing.mode, call :: closing.calls⟩

/-- Ends the visit of an element whose actions were called for its start, once its content was
visited. They are called again only if all of them proceeded and the content did not suppress the
rest of the element. -/
def endVisit (tag : String) (actions : List ι) (closed : Position) (opening : Opening ι α)
    (inner : Visit ι α) : Visit ι α :=
  let w := inner.workspace.moveTo closed
  match opening.flow, inner.mode with
  | .proceed, .active =>
    let closing := closeWith behaviour tag w actions
    ⟨closing.workspace, closing.mode, opening.calls ++ inner.calls ++ closing.calls⟩
  | .proceed, .suppressed | .skipChildren, _ => ⟨w, .active, opening.calls ++ inner.calls⟩
  | .skipSiblings, _ => ⟨w, .suppressed, opening.calls ++ inner.calls⟩

mutual
def visit (path : Path) (mode : Mode) (w : Workspace α) : Element → Visit ι α
  | .mk name attributes opened closed content =>
    let here := path.push name.tag
    let w := w.moveTo opened
    match resolve behaviour rules fallbacks here attributes w, mode with
    | none, mode =>
      let inner := visitAll here mode (w.record (unmatchedItem w here name.tag)) content
      ⟨inner.workspace.moveTo closed, mode, inner.calls⟩
    | some _, .suppressed =>
      let inner := visitAll here .suppressed w content
      ⟨inner.workspace.moveTo closed, .suppressed, inner.calls⟩
    | some actions, .active =>
      let opening := openWith behaviour name.tag attributes w actions
      let inner := visitAll here opening.flow.contentMode opening.workspace content
      endVisit behaviour name.tag actions closed opening inner

def visitAll (path : Path) (mode : Mode) (w : Workspace α) : List Element → Visit ι α
  | [] => ⟨w, mode, []⟩
  | e :: forest =>
    let first := visit path mode w e
    let others := visitAll path first.mode first.workspace forest
    ⟨others.workspace, others.mode, first.calls ++ others.calls⟩
end

variable {behaviour rules fallbacks} {path : Path} {w : Workspace α} {name : ElementName}
  {attributes : Attributes} {opened closed : Position} {content : List Element}

theorem visit_unmatched (mode : Mode)
    (h : resolve behaviour rules fallbacks (path.push name.tag) attributes (w.moveTo opened) =
      none) :
    visit behaviour rules fallbacks path mode w (.mk name attributes opened closed content) =
      let inner := visitAll behaviour rules fallbacks (path.push name.tag) mode
        ((w.moveTo opened).record (unmatchedItem (w.moveTo opened) (path.push name.tag) name.tag))
        content
      ⟨inner.workspace.moveTo closed, mode, inner.calls⟩ := by
  simp only [visit, h]

theorem visit_suppressed {actions : List ι}
    (h : resolve behaviour rules fallbacks (path.push name.tag) attributes (w.moveTo opened) =
      some actions) :
    visit behaviour rules fallbacks path .suppressed w
        (.mk name attributes opened closed content) =
      let inner := visitAll behaviour rules fallbacks (path.push name.tag) .suppressed
        (w.moveTo opened) content
      ⟨inner.workspace.moveTo closed, .suppressed, inner.calls⟩ := by
  simp only [visit, h]

theorem visit_active {actions : List ι}
    (h : resolve behaviour rules fallbacks (path.push name.tag) attributes (w.moveTo opened) =
      some actions) :
    visit behaviour rules fallbacks path .active w (.mk name attributes opened closed content) =
      let opening := openWith behaviour name.tag attributes (w.moveTo opened) actions
      endVisit behaviour name.tag actions closed opening
        (visitAll behaviour rules fallbacks (path.push name.tag) opening.flow.contentMode
          opening.workspace content) := by
  simp only [visit, h]

/-- Nothing makes a suppressed visit active again. -/
theorem mode_visit_suppressed (e : Element) :
    (visit behaviour rules fallbacks path .suppressed w e).mode = .suppressed := by
  obtain ⟨name, attributes, opened, closed, content⟩ := e
  cases h : resolve behaviour rules fallbacks (path.push name.tag) attributes
    (w.moveTo opened) with
  | none => rw [visit_unmatched _ h]
  | some actions => rw [visit_suppressed h]

theorem mode_visitAll_suppressed (forest : Forest) :
    (visitAll behaviour rules fallbacks path .suppressed w forest).mode = .suppressed := by
  induction forest generalizing w with
  | nil => rfl
  | cons e forest ih =>
    rw [visitAll, mode_visit_suppressed]
    exact ih

end Evaluator

end DocRules
