import Std.Data.HashMap
import DocRules.Path

/-! # Rules

A rule book binds paths to lists of actions. Actions are identities of any type `ι`. The book keeps
its rules in the order in which their keys were first registered, and an index from keys to places
for exact look-up.

An exact rule wins. Otherwise the rules whose keys match by their tails compete: more segments
shared with the path win, then the shorter key, then the earlier registration. A key need not be
shared in full; it only has to end like the path. -/

namespace DocRules

/-- The actions bound to one key, in order of registration, and what follows the wildcard of the key
if it matches by its tail. -/
structure Rule (ι : Type) where
  key : Path
  suffix? : Option Path
  actions : List ι
deriving Repr

/-- Rules in order of registration, with the place of each key among them. -/
structure RuleBook (ι : Type) where
  rules : Array (Rule ι)
  index : Std.HashMap Path Nat

namespace RuleBook

variable {ι : Type}

def empty : RuleBook ι := ⟨#[], ∅⟩

/-- Registers an action under a key, behind those that the key has already. -/
def add (book : RuleBook ι) (key : Path) (action : ι) : RuleBook ι :=
  match book.index[key]? with
  | some i =>
    { book with rules := book.rules.modify i fun r => { r with actions := r.actions ++ [action] } }
  | none =>
    { rules := book.rules.push ⟨key, key.tailSuffix?, [action]⟩
      index := book.index.insert key book.rules.size }

def ofList (registrations : List (Path × ι)) : RuleBook ι :=
  registrations.foldl (fun book r => book.add r.1 r.2) empty

/-- A rule that matches by its tail, ranked by the number of segments shared with the path and that
of the segments after the wildcard. -/
structure Candidate (ι : Type) where
  score : Nat
  length : Nat
  actions : List ι

/-- How a rule competes for a path, if its key ends like the path. -/
def candidate? (path : Path) (rule : Rule ι) : Option (Candidate ι) :=
  rule.suffix?.bind fun suffix =>
    let score := path.tailMatch suffix
    if score = 0 then none else some ⟨score, suffix.length, rule.actions⟩

/-- The better of the candidates so far and a later one, which has to be strictly better to win. -/
def better (best : Option (Candidate ι)) (next : Candidate ι) : Option (Candidate ι) :=
  match best with
  | none => some next
  | some b =>
    if next.score > b.score || (next.score == b.score && next.length < b.length) then some next
    else some b

def bestTail? (book : RuleBook ι) (path : Path) : Option (Candidate ι) :=
  book.rules.foldl
    (fun best rule => match candidate? path rule with
      | some next => better best next
      | none => best)
    none

/-- The actions that apply to a path. -/
def actionsAt? (book : RuleBook ι) (path : Path) : Option (List ι) :=
  match book.index[path]? with
  | some i => book.rules[i]?.map (·.actions)
  | none => (book.bestTail? path).map (·.actions)

def size (book : RuleBook ι) : Nat := book.rules.size

def keys (book : RuleBook ι) : List Path := book.rules.toList.map (·.key)

/-- Every registered action once, going through the rules in order. -/
def distinctActions [DecidableEq ι] (book : RuleBook ι) : List ι :=
  (book.rules.toList.flatMap (·.actions)).eraseDups

end RuleBook

end DocRules
