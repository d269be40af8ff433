import Parsing.Cursor.Basic
import Parsing.Outcome
import Parsing.Parser.Basic
import Parsing.Table

/-!
# What parsers remember

Parsers keep three things from one run to the next: the memo of every packrat rule, which deferred
parsers have been built, and counts. A `Session` holds them.

A rule's memo has one entry for each place at which the rule was called. An entry is pending while
the rule is still at work there; meeting a pending entry again means that the rule has called itself
without consuming anything. All entries belong to the input that the rule last saw.
-/

namespace Parsing

/-- Identifies one building of an expression: a deferred parser in an expression that is built twice
is two parsers. -/
structure BuildId where
  number : Nat
  deriving DecidableEq

/-- In which build an expression runs that another one runs. -/
inductive Origin where
  /-- In the build of the other one. -/
  | same
  /-- In a build that begins with this run. -/
  | new
  /-- In the build of the deferred parser at `site`, counted under `label`. -/
  | deferred (site : Nat) (label : String)
  | known (build : BuildId)

/-- A place in an opened input. -/
abbrev MemoKey := InputId × Nat

/-- The place of a cursor. -/
def Cursor.key {C T : Type} [Cursor C T] (c : C) : MemoKey :=
  (Cursor.input c, Cursor.position c)

/-- What is known of a rule at a place. -/
inductive MemoEntry (C ρ : Type) where
  /-- The rule is at work there. -/
  | pending
  | resolved (outcome : Outcome C ρ)

/-- The memo of one rule. -/
structure Memo (C ρ : Type) where
  /-- The input that the rule last saw. -/
  input : Option InputId := none
  entries : Table MemoKey (MemoEntry C ρ) := {}

namespace Memo

variable {C ρ : Type}

/-- Forgets the entries. -/
def clear (m : Memo C ρ) : Memo C ρ :=
  { m with entries := {} }

/-- Turns to an input; the entries of another one are forgotten. -/
def enter (m : Memo C ρ) (input : InputId) : Memo C ρ :=
  if m.input = some input then m else { input := some input }

def find? (m : Memo C ρ) (key : MemoKey) : Option (MemoEntry C ρ) :=
  m.entries.find? key

def insert (m : Memo C ρ) (key : MemoKey) (entry : MemoEntry C ρ) : Memo C ρ :=
  { m with entries := m.entries.insert key entry }

end Memo

/-- What parsers remember. -/
structure Session (C ρ : Type) where
  memos : Table RuleId (Memo C ρ) := {}
  /-- The builds that deferred parsers have led to, by build and site. -/
  deferred : Table (BuildId × Nat) BuildId := {}
  /-- How many buildings there were so far. -/
  buildCount : Nat := 0
  /-- How often each tallied parser succeeded. -/
  calls : Table String Nat := {}
  /-- How often deferred parsers were built, by label. -/
  builds : Table String Nat := {}

namespace Session

variable {C ρ : Type}

/-- The memo of a rule. -/
def memo (s : Session C ρ) (r : RuleId) : Memo C ρ :=
  (s.memos.find? r).getD {}

def setMemo (s : Session C ρ) (r : RuleId) (m : Memo C ρ) : Session C ρ :=
  { s with memos := s.memos.insert r m }

/-- What a rule knows of a place, once it has turned to the input that the place is in. -/
def lookup (s : Session C ρ) (r : RuleId) (key : MemoKey) : Option (MemoEntry C ρ) :=
  ((s.memo r).enter key.1).find? key

/-- Calls a rule at a place and tells what it knows of the place. If that is nothing, it is at work
there from now on. -/
def call (r : RuleId) (key : MemoKey) (s : Session C ρ) :
    Option (MemoEntry C ρ) × Session C ρ :=
  let m := (s.memo r).enter key.1
  (s.lookup r key,
    s.setMemo r (if (s.lookup r key).isSome then m else m.insert key .pending))

/-- Lets a rule know the outcome at a place. -/
def resolveCall (r : RuleId) (key : MemoKey) (outcome : Outcome C ρ) (s : Session C ρ) :
    Session C ρ :=
  s.setMemo r ((s.memo r).insert key (.resolved outcome))

/-- Begins the building of an expression. -/
def newBuild (s : Session C ρ) : BuildId × Session C ρ :=
  (⟨s.buildCount⟩, { s with buildCount := s.buildCount + 1 })

/-- Adds one to a count. -/
def countUp (counts : Table String Nat) (name : String) : Table String Nat :=
  counts.insert name ((counts.find? name).getD 0 + 1)

/-- The build of a deferred parser, which is begun if there was none. -/
def resolve (s : Session C ρ) (build : BuildId) (site : Nat) (label : String) :
    BuildId × Session C ρ :=
  match s.deferred.find? (build, site) with
  | some build => (build, s)
  | none =>
    let (inner, s) := s.newBuild
    (inner, { s with
      deferred := s.deferred.insert (build, site) inner
      builds := countUp s.builds label })

/-- The build in which an expression runs that one in the build `current` runs. -/
def enter (current : BuildId) : Origin → Session C ρ → BuildId × Session C ρ
  | .same, s => (current, s)
  | .new, s => s.newBuild
  | .deferred site label, s => s.resolve current site label
  | .known build, s => (build, s)

/-- Counts a success of a tallied parser. -/
def tally (s : Session C ρ) (name : String) : Session C ρ :=
  { s with calls := countUp s.calls name }

/-- Looking up what was built for a deferred parser leaves the memos alone. -/
@[simp] theorem memos_resolve (s : Session C ρ) (build : BuildId) (site : Nat) (label : String) :
    (s.resolve build site label).2.memos = s.memos := by
  unfold resolve
  split <;> rfl

/-- Entering a run leaves the memos alone. -/
@[simp] theorem memos_enter (current : BuildId) (origin : Origin) (s : Session C ρ) :
    (s.enter current origin).2.memos = s.memos := by
  cases origin with
  | deferred site label => exact s.memos_resolve current site label
  | _ => rfl

@[simp] theorem memos_tally (s : Session C ρ) (name : String) :
    (s.tally name).memos = s.memos := rfl

end Session

end Parsing
