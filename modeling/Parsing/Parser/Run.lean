import Parsing.Parser.Session
import Parsing.Recognizer.Choice
import Parsing.Recognizer.Lookahead

/-!
# Running a parser

`Parser.step` says what an expression does at a cursor in terms of what the expressions that it runs
do, by the recognizer of the same name for every way of combining parsers. What a name stands for is
looked up: rules and definitions in an `Environment`, the parsers around a place in its `Scope`.
`Parser.eval` runs expressions all the way down and keeps the books: the memos of rules
(`memoized`), the builds of deferred parsers, and counts. Since expressions can refer to themselves,
a run is given a bound on its depth (`fuel`), and stops when it is reached; a greater bound never
changes the outcome of a run that ended.

The parser of a rule is run outside of all recursive parsers, so it takes no handle along from the
place where it was bound, and what a value asks for next is a build of its own, which shares no
deferred parser with what is around it.
-/

namespace Parsing

universe u

/-- What a rule stands for. -/
inductive Binding (π : Type → Type) (ρ : Type) : Type 1 where
  /-- The grammar of the rule is gone. -/
  | dropped
  /-- The rule has no parser yet. -/
  | unbound
  /-- The rule has a parser; `packrat` tells whether it keeps a memo. -/
  | bound (packrat : Bool) (build : BuildId) (body : Parser π ρ ρ)

/-- What the names in an expression stand for. -/
structure Environment (π : Type → Type) (ρ : Type) where
  rule : RuleId → Binding π ρ
  definition : String → Parser π ρ ρ

/-- What the parser that `self` stands for has become. -/
inductive Handle (π : Type → Type) (ρ : Type) : Type 1 where
  /-- It can be used. -/
  | live (build : BuildId) (body : Parser π ρ ρ)
  /-- It is gone. -/
  | dropped

/-- The recursive parsers around a place, the innermost first. -/
abbrev Scope (π : Type → Type) (ρ : Type) := List (String × Handle π ρ)

/-- The scope from the parser of a given name on. -/
def Scope.startingAt {π : Type → Type} {ρ : Type} (scope : Scope π ρ) (name : String) : Scope π ρ :=
  scope.dropWhile fun entry => entry.1 != name

/-- Where an expression stands: inside of which recursive parsers, and in which build. -/
structure Context (π : Type → Type) (ρ : Type) where
  scope : Scope π ρ := []
  build : BuildId := ⟨0⟩

/-! ## One step -/

namespace Parser

variable {π : Type → Type} {C T ρ : Type} [Cursor C T] [Primitive π] [Primitive.Runs π C]

/-- What the parser does at a cursor, where `run` runs the other expressions. A loop goes round
`fuel` times at most. -/
def step {m : Type → Type u} [Monad m] [Halting m] (env : Environment π ρ) (fuel : Nat)
    (run : {β : Type} → Scope π ρ → Origin → Parser π ρ β → Recognizer m C β)
    (ctx : Context π ρ) : {α : Type} → Parser π ρ α → Recognizer m C α
  | _, .primitive p => fun c => ofExcept (Primitive.Runs.parse p c)
  | _, .success _ value => .succeed value
  | _, .fail expected => .fail expected
  | _, .abort expected => .abort expected
  | _, .eof => .eof
  | _, .map f p => .map f (run ctx.scope .same p)
  | _, .zip f p q => .zip f (run ctx.scope .same p) (run ctx.scope .same q)
  | _, .sequence ps => .sequence (List.ofFn fun i => run ctx.scope .same (ps i))
  | _, .chain p next => .chain (run ctx.scope .same p) fun a => run ctx.scope .new (next a)
  | _, .or p q => .or (run ctx.scope .same p) (run ctx.scope .same q)
  | _, .choice ps => .choice (List.ofFn fun i => run ctx.scope .same (ps i))
  | _, .optional p => .optional (run ctx.scope .same p)
  | _, .orElse _ default p => .orElse default (run ctx.scope .same p)
  | _, .named name p => .named name (run ctx.scope .same p)
  | _, .filter accepts expected p => .filter accepts expected (run ctx.scope .same p)
  | _, .lookahead p => .lookahead (run ctx.scope .same p)
  | _, .not p => .not p.not.describe (run ctx.scope .same p)
  | _, .many p => .many fuel (run ctx.scope .same p)
  | _, .manyOne p => .manyOne fuel (run ctx.scope .same p)
  | _, .repeated range p => .repeated fuel range (run ctx.scope .same p)
  | _, .joined element separator =>
    .joined fuel (run ctx.scope .same element) (run ctx.scope .same separator)
  | _, .withSpan p => .withSpan (run ctx.scope .same p)
  | _, .recursive name body => run ((name, .live ctx.build body) :: ctx.scope) .same body
  | _, .self name =>
    match ctx.scope.startingAt name with
    | [] => .abort "recursive parser used before its definition finished"
    | (_, .dropped) :: _ => .abort "recursive parser used after it was dropped"
    | (_, .live build body) :: outer => run ((name, .live build body) :: outer) (.known build) body
  | _, .defer site label body => run ctx.scope (.deferred site label) body
  | _, .define site name => run [] (.deferred site name) (env.definition name)
  | _, .rule r =>
    match env.rule r.id with
    | .dropped => .abort s!"rule `{r.name}` used after its grammar was dropped"
    | .unbound => fun _ => halt (.unboundRule r.name)
    | .bound _ build body => run [] (.known build) body
  | _, .tally _ p => run ctx.scope .same p

section

variable {m : Type → Type u} [Monad m] [Halting m] (env : Environment π ρ) (fuel : Nat)
  (run : {β : Type} → Scope π ρ → Origin → Parser π ρ β → Recognizer m C β) (ctx : Context π ρ)

/-- A name stands for the recursive parser around it that was defined last, and halts or aborts
where there is none to run. -/
theorem step_self (name : String) :
    (self name).step env fuel run ctx =
      match ctx.scope.startingAt name with
      | [] => .abort "recursive parser used before its definition finished"
      | (_, .dropped) :: _ => .abort "recursive parser used after it was dropped"
      | (_, .live build body) :: outer =>
        run ((name, .live build body) :: outer) (.known build) body := rfl

/-- A rule runs its parser outside of all recursive parsers, if it has one. -/
theorem step_rule (r : Rule) :
    (rule r).step env fuel run ctx =
      match env.rule r.id with
      | .dropped => .abort s!"rule `{r.name}` used after its grammar was dropped"
      | .unbound => fun _ => halt (.unboundRule r.name)
      | .bound _ build body => run [] (.known build) body := rfl

end

end Parser

/-! ## Keeping the books -/

namespace Recognizer

variable {C T ρ α : Type} [Cursor C T] {m : Type → Type u} [Monad m] [Stateful (Session C ρ) m]

/-- Runs a rule at most once at each place of an input. Calling it where it is already at work is an
error. -/
def memoized (r : RuleId) (body : Recognizer m C ρ) : Recognizer m C ρ := fun c => do
  match ← update fun s : Session C ρ => s.call r (Cursor.key c) with
  | some (.resolved outcome) => pure outcome
  | some .pending => abort "left recursion detected" c
  | none =>
    let outcome ← body c
    update fun s : Session C ρ => ((), s.resolveCall r (Cursor.key c) outcome)
    pure outcome

variable (ρ) in
/-- Counts the successes. -/
def tally (name : String) (p : Recognizer m C α) : Recognizer m C α :=
  chain p fun a rest => do
    update fun s : Session C ρ => ((), s.tally name)
    succeed a rest

end Recognizer

namespace Parser

variable {π : Type → Type} {C T ρ : Type} [Cursor C T]

/-- Keeps the books on an expression that is run by `p`. -/
def attend {m : Type → Type u} [Monad m] [Stateful (Session C ρ) m] (env : Environment π ρ) :
    {α : Type} → Parser π ρ α → Recognizer m C α → Recognizer m C α
  | _, .rule r, p =>
    match env.rule r.id with
    | .bound true _ _ => .memoized r.id p
    | _ => p
  | _, .tally name _, p => .tally ρ name p
  | _, _, p => p

/-- The books of a rule are its memo, if it keeps one. -/
theorem attend_rule {m : Type → Type u} [Monad m] [Stateful (Session C ρ) m]
    (env : Environment π ρ) (r : Rule) (p : Recognizer m C ρ) :
    (rule r).attend env p =
      match env.rule r.id with
      | .bound true _ _ => .memoized r.id p
      | _ => p := rfl

variable [Primitive π] [Primitive.Runs π C]

/-- What the parser does at a cursor, in a run that is at most `fuel` deep. -/
def eval (env : Environment π ρ) :
    {α : Type} → (fuel : Nat) → Context π ρ → Parser π ρ α →
      Recognizer (Effect (Session C ρ)) C α
  | _, 0, _, _ => fun _ => halt .outOfFuel
  | _, n + 1, ctx, p =>
    p.attend env <| p.step env n
      (fun scope origin q c => do
        let build ← update fun s : Session C ρ => s.enter ctx.build origin
        q.eval env n { scope, build } c)
      ctx

/-- Runs a parser at a cursor, from a session and to the session it leaves. -/
def run {α : Type} (p : Parser π ρ α) (env : Environment π ρ) (fuel : Nat) (ctx : Context π ρ)
    (c : C) (s : Session C ρ) : Except Halt (Outcome C α) × Session C ρ :=
  (p.eval env fuel ctx c).run s

end Parser

end Parsing
