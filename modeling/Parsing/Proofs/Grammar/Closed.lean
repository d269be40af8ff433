import Parsing.Parser.Text
import Parsing.Proofs.Grammar.LifeCycle
import Parsing.Proofs.Parser.Conduct

/-!
# Expressions that never end with an error

Nothing but a packrat rule leads to an error: not an expression that never aborts, refers to
recursive parsers around it only, and uses rules that keep no memo and are alive (`Parser.Scoped`).
The parsers around a place are then all live, and refer to parsers around themselves only
(`Scope.Scoped`), which is what every run inside of another one finds again
(`Conduct.KeptBy.of_scoped`).

Repetitions, options and alternatives to a default do not fail either (`Parser.Lenient`), so they
always succeed (`Parser.isError_eq_false`).
-/

namespace Parsing

open Recognizer

variable {π : Type → Type} {ρ α : Type} {rules : List RuleId}

/-! ## Names and what they stand for -/

/-- Whether an expression never aborts, uses certain rules only, and refers to no recursive parsers
but those of some names and those inside of it. -/
def Parser.Scoped (rules : List RuleId) {α : Type} : Parser π ρ α → List String → Prop
  | .map _ p, names | .optional p, names | .orElse _ _ p, names | .named _ p, names
  | .filter _ _ p, names | .lookahead p, names | .not p, names | .many p, names
  | .manyOne p, names | .repeated _ p, names | .withSpan p, names | .defer _ _ p, names
  | .tally _ p, names => p.Scoped rules names
  | .zip _ p q, names | .joined p q, names => p.Scoped rules names ∧ q.Scoped rules names
  | .or p q, names => p.Scoped rules names ∧ q.Scoped rules names
  | .sequence ps, names | .choice ps, names => ∀ i, (ps i).Scoped rules names
  | .chain p next, names => p.Scoped rules names ∧ ∀ a, (next a).Scoped rules names
  | .recursive name body, names => body.Scoped rules (name :: names)
  | .self name, names => name ∈ names
  | .rule r, _ => r.id ∈ rules
  | .abort _, _ => False
  | .primitive _, _ | .success _ _, _ | .fail _, _ | .eof, _ | .define _ _, _ => True

/-- The parts of a scoped expression are scoped in the same way. -/
theorem Parser.Scoped.eachPart {p : Parser π ρ α} {names : List String} (h : p.Scoped rules names)
    (hp : p.isContextual = false) : p.EachPart fun q => q.Scoped rules names := by
  cases p with
  | recursive => cases hp
  | primitive | success | fail | abort | eof | self | define | rule => trivial
  | _ => exact h

/-- The names of the recursive parsers around a place. -/
def Scope.names (scope : Scope π ρ) : List String :=
  scope.map Prod.fst

/-- Whether the parsers around a place are live, and refer to those around themselves only. -/
def Scope.Scoped (rules : List RuleId) : Scope π ρ → Prop
  | [] => True
  | (_, .dropped) :: _ => False
  | (name, .live _ body) :: outer =>
    body.Scoped rules (name :: Scope.names outer) ∧ Scope.Scoped rules outer

/-- A name in scope stands for a live parser. -/
theorem Scope.Scoped.exists_startingAt {scope : Scope π ρ} (h : scope.Scoped rules) {name : String}
    (hname : name ∈ scope.names) : ∃ build body, ∃ outer : Scope π ρ,
      scope.startingAt name = (name, .live build body) :: outer ∧
        Scope.Scoped rules ((name, .live build body) :: outer) := by
  induction scope with
  | nil => cases hname
  | cons entry outer ih =>
    obtain ⟨label, handle⟩ := entry
    cases handle with
    | dropped => exact h.elim
    | live build body =>
      -- the nearest parser of the name is the one that is meant
      by_cases hlabel : label = name
      · subst hlabel
        refine ⟨build, body, outer, ?_, h⟩
        rw [Scope.startingAt, List.dropWhile_cons_of_neg (by simp)]
      · obtain ⟨build', body', outer', hstart, hscoped⟩ := ih h.2
          ((List.mem_cons.mp hname).resolve_left (Ne.symm hlabel))
        refine ⟨build', body', outer', ?_, hscoped⟩
        rw [Scope.startingAt, List.dropWhile_cons_of_pos (by simpa using hlabel)]
        exact hstart

/-! ## Runs without errors -/

/-- Running scoped expressions in scopes of live parsers, without any error. -/
def Conduct.scoped (π : Type → Type) (ρ : Type) (rules : List RuleId) : Conduct π ρ where
  asks scope p := scope.Scoped rules ∧ p.Scoped rules scope.names
  stops _ := True
  errors _ := False
  memos _ := False
  stops_outOfFuel := trivial
  stops_brokenCharacter := trivial

/-- Whether some rules have scoped parsers and keep no memos. -/
structure Environment.Scoped (env : Environment π ρ) (rules : List RuleId) : Prop where
  rule {r : RuleId} : r ∈ rules →
    ∃ build body, env.rule r = .bound false build body ∧ body.Scoped rules []
  definition (name : String) : (env.definition name).Scoped rules []

/-- Scoped expressions run without an error, in an environment of scoped rules. -/
theorem Conduct.KeptBy.of_scoped {env : Environment π ρ} (henv : env.Scoped rules) :
    (Conduct.scoped π ρ rules).KeptBy env where
  part hp hcontext := (hp.2.eachPart hcontext).imp fun _ hq => ⟨hp.1, hq⟩
  abort hp := hp.2
  recursive _ hp := ⟨⟨hp.2, hp.1⟩, hp.2⟩
  self hp := by
    obtain ⟨build, body, outer, hstart, hscoped⟩ := hp.1.exists_startingAt hp.2
    rw [hstart]
    exact ⟨hscoped, hscoped.1⟩
  define _ := ⟨trivial, henv.definition _⟩
  rule {scope r} hp := by
    obtain ⟨build, body, hbound, hbody⟩ := henv.rule hp.2
    rw [hbound]
    exact ⟨⟨trivial, hbody⟩, nofun⟩

/-! ## Expressions that do not fail -/

/-- Whether an expression answers a failure of its part with a value. -/
def Parser.Lenient : Parser π ρ α → Prop
  | .many _ | .optional _ | .orElse _ _ _ => True
  | _ => False

namespace Dialogue

variable {C T σ β : Type}

/-- Whether a dialogue does not end with a failure, whatever the answers are. -/
inductive Lenient : Dialogue π ρ C (Outcome C α) → Prop where
  | done {o : Outcome C α} (h : o.isFailure = false) : Lenient (.done o)
  | stop (halt : Halt) : Lenient (.stop halt)
  | ask {β : Type} {scope : Scope π ρ} {origin : Origin} {q : Parser π ρ β} {c : C}
    {next : Outcome C β → Dialogue π ρ C (Outcome C α)} (hnext : ∀ o, Lenient (next o)) :
    Lenient (.ask scope origin q c next)

/-- A branch is lenient if what it goes on with is, and its other way is or is never taken. -/
theorem Lenient.branch {p : Recognizer (Dialogue π ρ C) C α} {c : C}
    {next : α → Recognizer (Dialogue π ρ C) C β}
    {otherwise : NoSuccess → Recognizer (Dialogue π ρ C) C β} (hnext : ∀ a d, Lenient (next a d))
    (hotherwise : (∀ r, Lenient (otherwise r c)) ∨ Lenient (p c)) :
    Lenient (Recognizer.branch p next otherwise c) := by
  unfold Recognizer.branch
  generalize p c = x at hotherwise
  -- where the first part may fail, the alternative does not
  induction x with
  | done o =>
    cases o with
    | success a d => exact hnext a d
    | noSuccess r =>
      change Lenient (if r.isFailure then otherwise r c else Dialogue.done (.noSuccess r))
      split
      · rename_i hr
        refine hotherwise.elim (fun h => h r) fun hp => ?_
        cases hp with
        | done hr' => exact absurd (hr.symm.trans hr') Bool.noConfusion
      · rename_i hr
        exact .done (Bool.eq_false_iff.mpr hr)
  | stop halt => exact .stop halt
  | ask scope origin q d cont ih =>
    refine .ask fun o => ih o (hotherwise.imp_right fun hp => ?_)
    cases hp with
    | ask hnext => exact hnext o

/-- A value is no failure. -/
theorem lenient_success (a : α) (c : C) : Lenient (π := π) (ρ := ρ) (.done (.success a c)) :=
  .done rfl

/-- A loop without an upper bound answers every failure with a value. -/
theorem lenient_openEnded [Cursor C T] (p : Recognizer (Dialogue π ρ C) C α) (fuel : Nat) (c : C) :
    Lenient (openEnded p fuel c) := by
  induction fuel generalizing c with
  | zero => exact .stop _
  | succ n ih =>
    refine .branch (fun a d => ?_) (.inl fun _ => lenient_success _ _)
    split
    · exact lenient_success _ _
    · exact .branch (fun as e => lenient_success _ _) (.inr (ih d))

/-- The run of a lenient dialogue does not end with a failure. -/
theorem Lenient.isFailure_eq_false {x : Dialogue π ρ C (Outcome C α)} (h : x.Lenient)
    {answer : {β : Type} → Scope π ρ → Origin → Parser π ρ β → Recognizer (Effect σ) C β} {s : σ}
    {o : Outcome C α} (hrun : ((x.run answer).run s).1 = .ok o) : o.isFailure = false := by
  induction h generalizing s with
  | done h =>
    cases hrun
    exact h
  | stop => cases hrun
  | @ask β scope origin q c next _ ih =>
    rw [run, Effect.run_bind] at hrun
    rcases hanswer : (answer scope origin q c).run s with ⟨_ | o', s'⟩
    all_goals rw [hanswer] at hrun
    · cases hrun
    · exact ih o' hrun

end Dialogue

section Runs

variable {C T : Type} [Cursor C T] [Primitive π] [Primitive.Runs π C] {env : Environment π ρ}
  {fuel : Nat} {ctx : Context π ρ} {p : Parser π ρ α} {c : C} {s : Session C ρ} {o : Outcome C α}

/-- What a lenient expression asks for is lenient. -/
theorem Parser.Lenient.plan (h : p.Lenient) : (p.plan env fuel ctx c).Lenient := by
  cases p with
  | many p =>
    change (Recognizer.many fuel (fun c => Dialogue.ask ctx.scope .same p c .done) c).Lenient
    rw [Recognizer.many_eq]
    exact Dialogue.lenient_openEnded _ fuel c
  | optional p =>
    exact .branch (fun a d => Dialogue.lenient_success a d)
      (.inl fun _ => Dialogue.lenient_success none c)
  | orElse _ default p =>
    exact .branch (p := fun d => .ask ctx.scope .same p d .done)
      (fun a d => Dialogue.lenient_success a d) (.inl fun _ => Dialogue.lenient_success default c)
  | _ => exact h.elim

/-- A lenient expression comes to no failure. -/
theorem Parser.Lenient.isFailure_eq_false (h : p.Lenient)
    (hrun : (p.run env fuel ctx c s).1 = .ok o) : o.isFailure = false := by
  cases fuel with
  | zero => cases hrun
  | succ n =>
    have hbooks : p.keepsBooks = false := by
      cases p <;> first | rfl | exact h.elim
    rw [Parser.run, eval_succ, attend_eq_self hbooks] at hrun
    exact h.plan.isFailure_eq_false hrun

end Runs

/-! ## Rules of plain grammars -/

/-- Whether a rule belongs to a finished grammar that is alive; `packrat` tells whether the rules of
the grammar keep memos. -/
def Registry.Alive (reg : Registry π ρ) (packrat : Bool) (r : RuleId) : Prop :=
  ∃ (g : Grammar) (reg₀ : Registry π ρ) (start : Rule) (parser : GrammarParser),
    Grammar.Built packrat g reg₀ ∧ g.finish start reg₀ = .ok parser ∧ r ∈ g.ruleIds ∧
      reg₀.Later g.ruleIds reg

/-- A rule of a finished grammar that is alive has its parser. -/
theorem Registry.Alive.exists_binding {reg : Registry π ρ} {packrat : Bool} {r : RuleId}
    (h : reg.Alive packrat r) : ∃ build body, reg.binding r = .bound packrat build body := by
  obtain ⟨g, reg₀, start, parser, hbuilt, hfinish, hmem, hlater⟩ := h
  obtain ⟨r, hr, rfl⟩ := List.mem_map.mp hmem
  obtain ⟨build, body, hbound⟩ := hbuilt.binding_of_finish hfinish hr
  rcases hlater.binding_of_bound hbound with hbinding | ⟨-, hkept⟩
  · exact ⟨build, body, hbinding⟩
  · exact absurd hmem hkept

section Errors

variable {C T : Type} [Cursor C T] [Primitive π] [Primitive.Runs π C] [Primitive.Lawful π C]
  [Primitive.StopsInCharacters π C] {reg : Registry π ρ} {definition : String → Parser π ρ ρ}

/-- A scoped expression comes to no error in live scopes. -/
theorem Parser.isError_of_run {env : Environment π ρ} (henv : env.Scoped rules)
    {ctx : Context π ρ} (hscope : ctx.scope.Scoped rules) {p : Parser π ρ α}
    (hp : p.Scoped rules ctx.scope.names) {fuel : Nat} {c : C} {s : Session C ρ} {o : Outcome C α}
    (hrun : (p.run env fuel ctx c s).1 = .ok o) : o.isError = false := by
  obtain ⟨-, hpermitted⟩ := (p.eval_guides (.of_scoped henv) fuel ctx ⟨hscope, hp⟩ c).of_ok
    (s := s) (fun _ hr => hr.elim) (Prod.ext hrun rfl)
  cases o with
  | success => rfl
  | noSuccess r =>
    change r.isError = false
    rw [NoSuccess.isError_eq_not_isFailure]
    cases hr : r.isFailure
    · exact (hpermitted hr).elim
    · rfl

/-- Where no rule in use keeps a memo and all of them are alive, and recursive parsers are referred
to inside of themselves only, nothing ends with an error; and what answers failures with a value
always succeeds. -/
theorem Parser.isError_eq_false (hrules : ∀ r ∈ rules, reg.Alive false r)
    (hbodies : ∀ r ∈ rules, ∀ packrat build body,
      reg.binding r = .bound packrat build body → body.Scoped rules [])
    (hdefinition : ∀ name, (definition name).Scoped rules []) {ctx : Context π ρ}
    (hscope : ctx.scope.Scoped rules) {p : Parser π ρ α} (hp : p.Scoped rules ctx.scope.names)
    (fuel : Nat) (c : C) (s : Session C ρ) (o : Outcome C α)
    (hrun : (p.run ⟨reg.binding, definition⟩ fuel ctx c s).1 = .ok o) :
    o.isError = false ∧ (p.Lenient → ∃ a d, o = .success a d) := by
  have henv : Environment.Scoped ⟨reg.binding, definition⟩ rules := by
    refine ⟨fun {r} hr => ?_, hdefinition⟩
    obtain ⟨build, body, hbound⟩ := (hrules r hr).exists_binding
    exact ⟨build, body, hbound, hbodies r hr _ _ _ hbound⟩
  have herror := isError_of_run henv hscope hp hrun
  refine ⟨herror, fun hlenient => ?_⟩
  have hfailure := hlenient.isFailure_eq_false hrun
  cases o with
  | success a d => exact ⟨a, d, rfl⟩
  | noSuccess r =>
    change r.isError = false at herror
    change r.isFailure = false at hfailure
    rw [NoSuccess.isError_eq_not_isFailure, hfailure] at herror
    cases herror

end Errors

/-! ### Brackets around a rule -/

namespace Nesting

def leaf : Rule :=
  ⟨⟨0⟩, "leaf"⟩

def leafBody : Parser TextPrimitive Nat Nat :=
  .replaced 0 (.char 'x')

def registry : Registry TextPrimitive Nat :=
  ⟨[{ name := "leaf", packrat := false, body := some (⟨0⟩, leafBody) }]⟩

/-- The rule of leaves is that of a finished grammar. -/
theorem alive : registry.Alive false leaf.id := by
  have hstart : Grammar.Built false { packrat := false } ({} : Registry TextPrimitive Nat) :=
    .start {}
  have hleaf := hstart.declare (show Grammar.declare _ "leaf" _ = .ok (leaf, _, _) from rfl)
  have hbound := hleaf.bind (show Registry.bind _ leaf ⟨0⟩ leafBody = .ok registry from rfl)
  exact ⟨_, registry, leaf, _, hbound, rfl, List.mem_cons_self, .refl⟩

def definition : String → Parser TextPrimitive Nat Nat :=
  fun _ => .fail "<undefined>"

/-- What is undefined is scoped. -/
theorem scoped_definition (name : String) : (definition name).Scoped [leaf.id] [] :=
  trivial

/-- Leaves in brackets; the values are the numbers of pairs of them. -/
def leaves : Parser TextPrimitive Nat (List Nat) :=
  .many (.recursive "nested"
    (.or (.map (· + 1) (.between (.char '[') (.self "nested") (.char ']'))) (.rule leaf)))

end Nesting

open Nesting in
/-- The last bracket is not closed, so the last repetition fails. -/
theorem Parser.isError_eq_false_nesting :
    (leaves.run ⟨registry.binding, definition⟩ 12 {}
      (TextReader.ofChars ['[', 'x', ']', '['] (.offset 0) ⟨0⟩) {}).1 =
        .ok (.success [1] ⟨['[', 'x', ']', '['], ['['], 3, .offset 3, ⟨0⟩⟩) ∧
      ∃ a d, (.success [1] ⟨['[', 'x', ']', '['], ['['], 3, .offset 3, ⟨0⟩⟩ :
        Outcome TextReader (List Nat)) = .success a d := by
  have hrun : (leaves.run ⟨registry.binding, definition⟩ 12 {}
      (TextReader.ofChars ['[', 'x', ']', '['] (.offset 0) ⟨0⟩) {}).1 =
        .ok (.success [1] ⟨['[', 'x', ']', '['], ['['], 3, .offset 3, ⟨0⟩⟩) := rfl
  have hrules : ∀ r ∈ [leaf.id], registry.Alive false r := by
    intro r hr
    cases List.mem_singleton.mp hr
    exact alive
  have hbodies : ∀ r ∈ [leaf.id], ∀ packrat build body,
      registry.binding r = .bound packrat build body → body.Scoped [leaf.id] [] := by
    intro r hr packrat build body hbound
    cases List.mem_singleton.mp hr
    cases hbound
    trivial
  have hleaves : leaves.Scoped [leaf.id] [] :=
    ⟨⟨trivial, List.mem_cons_self, trivial⟩, List.mem_cons_self⟩
  have hscope : Scope.Scoped [leaf.id] ({} : Context TextPrimitive Nat).scope := trivial
  exact ⟨hrun, (isError_eq_false hrules hbodies scoped_definition hscope hleaves 12 _ {} _ hrun).2
    trivial⟩

end Parsing
