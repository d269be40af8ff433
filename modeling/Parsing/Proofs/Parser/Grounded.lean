import Parsing.Proofs.Parser.Ahead
import Parsing.Proofs.Parser.Refinement

/-!
# Expressions over rules

A grounded expression is a finite combination of primitive parsers that always come to an outcome
and of some rules. Everything that repeats in it stops where nothing more is consumed. So its
dialogue, for a bound greater than the number of tokens that are left, does not stop, asks for its
parts only, and has no errors of its own unless it may abort the parse (`ahead_plan_of_grounded`).
-/

namespace Parsing

open Recognizer Cursor

/-- Whether a primitive parser comes to an outcome wherever it is run. -/
def Primitive.Answers {π : Type → Type} {α : Type} (C : Type) [Primitive.Runs π C] (p : π α) :
    Prop :=
  ∀ c : C, ∃ o, Primitive.Runs.parse p c = .ok o

/-- A test on one token comes to an outcome. -/
theorem TokenTest.answers {C T α : Type} [Cursor C T] (test : TokenTest T α) :
    Primitive.Answers C test := by
  intro c
  obtain ⟨expected, accepts⟩ := test
  change ∃ o, Recognizer.satisfy (m := Except Halt) expected accepts c = .ok o
  unfold Recognizer.satisfy
  split
  · split
    · exact ⟨_, rfl⟩
    · exact ⟨_, rfl⟩
  · exact ⟨_, rfl⟩

/-- So does such a test among the primitive parsers of texts. -/
theorem TextPrimitive.answers_token {C α : Type} [TextCursor C] (test : TokenTest Char α) :
    Primitive.Answers C (TextPrimitive.token test) :=
  test.answers

/-- Whether an expression may stand in one that is grounded in some rules; `aborts` tells whether it
may abort the parse. -/
def Parser.Grounded {π : Type → Type} {ρ : Type} (C : Type) [Primitive.Runs π C]
    (rules : List RuleId) (aborts : Prop) {α : Type} : Parser π ρ α → Prop
  | .primitive p => Primitive.Answers C p
  | .abort _ => aborts
  | .rule r => r.id ∈ rules
  | .joined _ _ | .recursive _ _ | .self _ | .defer _ _ _ | .define _ _ => False
  | _ => True

section

variable {π : Type → Type} {C T ρ α : Type} [Cursor C T] [Cursor.Lawful C]
  {M : Manner π ρ} {base c : C}

/-- A loop does not stop as long as it may go round more often than there are tokens left. -/
theorem Dialogue.ahead_openEnded {scope : Scope π ρ} {q : Parser π ρ α} (hq : M.asks scope q)
    {fuel : Nat} (hfuel : M.stops ∨ Lawful.remaining c < fuel) (hc : After base c) :
    Ahead M base (openEnded (fun c => .ask scope .same q c .done) fuel c) := by
  induction fuel generalizing c with
  | zero => exact .stop _ (hfuel.resolve_right (Nat.not_lt_zero _))
  | succ n ih =>
    refine .ask hq hc fun o ho he => ?_
    cases o with
    | success a d =>
      have hd : After base d := hc.trans ho
      change Ahead M base ((if position d = position c then _ else _) : Dialogue π ρ C _)
      split
      · exact ahead_success _ hd
      · -- the repetition consumed something
        have hlt : Lawful.remaining d < Lawful.remaining c := After.remaining_lt ho ‹_›
        have hfuel' : M.stops ∨ Lawful.remaining d < n := hfuel.imp_right fun h => by omega
        exact (ih hfuel' hd).branch (fun as e he => ahead_success _ he) fun r hr => ahead_report hr
    | noSuccess r =>
      change Ahead M base ((if r.isFailure then _ else _) : Dialogue π ρ C _)
      split
      · exact ahead_success _ hc
      · exact .done (Outcome.within_noSuccess base r) he

variable [Primitive π] [Primitive.Runs π C] [Primitive.Lawful π C]

/-- A grounded expression goes on to the end of its dialogue. -/
theorem Parser.ahead_plan_of_grounded {env : Environment π ρ} {fuel : Nat} {ctx : Context π ρ}
    {rules : List RuleId} {aborts : Prop} {p : Parser π ρ α} (hp : p.Grounded C rules aborts)
    (hrule : p.isRule = false) (haborts : aborts → M.errors)
    (hparts : p.EachPart fun q => M.asks ctx.scope q)
    (hfuel : M.stops ∨ Lawful.remaining base < fuel) (hc : After base c) :
    (p.plan env fuel ctx c).Ahead M base := by
  suffices (Dialogue.ahead M base).Related (p.plan env fuel ctx) (p.plan env fuel ctx) from
    this c c ⟨rfl, hc⟩
  induction p using forms with
  | combination p hcombination =>
    refine (Dialogue.ahead M base).related_step hcombination
      (hparts.imp fun q hq origin => Dialogue.related_ahead_ask hq)
      (hparts.imp fun q hq => ?_)
    rintro c _ ⟨rfl, hc⟩
    exact Dialogue.ahead_openEnded hq
      (hfuel.imp_right (Nat.lt_of_le_of_lt hc.remaining_le)) hc
  | contextual p hcontext =>
    cases p with
    | rule r => cases hrule
    | recursive | self | define => exact hp.elim
    | _ => cases hcontext
  | primitive p =>
    rintro c _ ⟨rfl, hc⟩
    -- a primitive parser has an outcome, which leads ahead by its laws
    obtain ⟨o, ho⟩ := hp c
    change Dialogue.Ahead M base (ofExcept (Primitive.Runs.parse p c))
    rw [ho]
    cases o with
    | success a d =>
      exact Dialogue.ahead_success a (hc.trans (Primitive.Lawful.after_of_success ho))
    | noSuccess r => exact Dialogue.ahead_report (Primitive.Lawful.isFailure_of_noSuccess ho)
  | abort expected =>
    exact fun _ _ _ => .done (Outcome.within_noSuccess base _) fun _ => haborts hp
  | joined element separator => exact hp.elim
  | withSpan p =>
    exact (Dialogue.ahead M base).related_withSpan (Dialogue.related_ahead_ask hparts)
      Correspondence.between_eq_of_identity

end

end Parsing
