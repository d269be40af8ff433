import Parsing.Proofs.Parser.Names

/-!
# Unfolding recursive parsers

A recursive parser is its body with the parser itself in place of its name, as long as no name that
it mentions has another meaning inside of the body (`Parser.eval_unfolded_follows`). The two differ
in the scopes in which expressions run: on the one side the name is there, on the other side every
occurrence of it brings the parser along, into whatever scope it stands in (`Unfolds`). From such an
occurrence on both sides run the body, and the scope on the other side has names besides that the
body does not mention (`Scope.Alike`). So both sides ask for runs of expressions in scopes that are
related again (`Unfolding`), and with the same bound they do the same.
-/

namespace Parsing

open Recognizer

universe u v

/-! ## Related questions -/

/-- A relation between two expressions, each in a scope. -/
abbrev ScopedRelation (π : Type → Type) (ρ : Type) :=
  ∀ ⦃α : Type⦄, Scope π ρ → Parser π ρ α → Scope π ρ → Parser π ρ α → Prop

/-- Whether a name stands for related parsers at the start of two scopes, or for none in both. -/
inductive Scope.Meets {π : Type → Type} {ρ : Type} (R : ScopedRelation π ρ) (name : String) :
    Scope π ρ → Scope π ρ → Prop where
  | nil : Meets R name [] []
  | dropped {label label' : String} {outer outer' : Scope π ρ} :
    Meets R name ((label, .dropped) :: outer) ((label', .dropped) :: outer')
  | live {label label' : String} {build build' : BuildId} {body body' : Parser π ρ ρ}
    {outer outer' : Scope π ρ}
    (h : R ((name, .live build body) :: outer) body ((name, .live build' body') :: outer') body') :
    Meets R name ((label, .live build body) :: outer) ((label', .live build' body') :: outer')

/-- A name is looked up from the inside out. -/
theorem Scope.startingAt_cons {π : Type → Type} {ρ : Type} (label name : String)
    (handle : Handle π ρ) (scope : Scope π ρ) : Scope.startingAt ((label, handle) :: scope) name =
      if label = name then (label, handle) :: scope else scope.startingAt name := by
  rw [startingAt, List.dropWhile_cons]
  by_cases hname : label = name <;> simp [hname, startingAt]

/-- Names that mean the same stand for related parsers. -/
theorem Scope.Alike.meets {π : Type → Type} {ρ : Type} {F : String → Prop} {name : String}
    {scope scope' : Scope π ρ} {R : ScopedRelation π ρ} (h : Alike F scope scope') (hname : F name)
    (hR : ∀ {scope scope' : Scope π ρ} {body : Parser π ρ ρ},
      Alike body.Mentions scope scope' → R scope body scope' body) :
    Meets R name (scope.startingAt name) (scope'.startingAt name) := by
  induction h with
  | nil F => exact .nil
  | @cons F G label handle handle' scope scope' hbody hF hG h ih =>
    rw [startingAt_cons, startingAt_cons]
    split
    · rename_i hlabel
      subst hlabel
      cases handle <;> cases handle' <;> cases hbody
      · exact .live (hR (Alike.recursive (h.mono (hG _ rfl))))
      · exact .dropped
    · exact ih (hF name hname ‹_›)
  | @skip F label handle scope scope' hlabel h ih =>
    have hne : label ≠ name := fun heq => hlabel (heq ▸ hname)
    rw [startingAt_cons, if_neg hne]
    exact ih hname

/-- A relation that holds of the parsers behind a name holds of the name on both sides. -/
theorem Simulation.related_self_of_meets {m : Type → Type u} {n : Type → Type v} [Monad m] [Monad n]
    [Halting m] [Halting n] {π : Type → Type} {C D T U ρ : Type} [Cursor C T] [Cursor D U]
    [Primitive π] [Primitive.Runs π C] [Primitive.Runs π D] {K : Correspondence C D}
    (S : Simulation m n K) {env env' : Environment π ρ} {fuel fuel' : Nat}
    {run : {β : Type} → Scope π ρ → Origin → Parser π ρ β → Recognizer m C β}
    {run' : {β : Type} → Scope π ρ → Origin → Parser π ρ β → Recognizer n D β}
    {ctx ctx' : Context π ρ} {R : ScopedRelation π ρ} {name : String}
    (hscope : Scope.Meets R name (ctx.scope.startingAt name) (ctx'.scope.startingAt name))
    (abort : ∀ expected, S.Related (Recognizer.abort (α := ρ) expected)
      (Recognizer.abort expected))
    (ask : ∀ {scope scope' build build'} {body body' : Parser π ρ ρ}, R scope body scope' body' →
      S.Related (run scope (.known build) body) (run' scope' (.known build') body')) :
    S.Related ((Parser.self name).step env fuel run ctx)
      ((Parser.self name).step env' fuel' run' ctx') := by
  rw [Parser.step_self, Parser.step_self]
  generalize ctx.scope.startingAt name = start at hscope
  generalize ctx'.scope.startingAt name = start' at hscope
  cases hscope with
  | nil => exact abort _
  | dropped => exact abort _
  | live h => exact ask h

namespace Dialogue

variable {π : Type → Type} {C T ρ α β : Type} {R : ScopedRelation π ρ}

/-- Whether two dialogues ask for related expressions in turn, and do the same about the answers. -/
inductive Matches (R : ScopedRelation π ρ) : Dialogue π ρ C α → Dialogue π ρ C α → Prop where
  | done (a : α) : Matches R (.done a) (.done a)
  | stop (h : Halt) : Matches R (.stop h) (.stop h)
  | ask {β : Type} {scope scope' : Scope π ρ} {origin origin' : Origin} {q q' : Parser π ρ β}
    {c : C} {next next' : Outcome C β → Dialogue π ρ C α} (hq : R scope q scope' q')
    (hnext : ∀ o, Matches R (next o) (next' o)) :
    Matches R (.ask scope origin q c next) (.ask scope' origin' q' c next')

/-- Asking for related expressions is symmetric, if the relation is turned around. -/
theorem Matches.symm {R' : ScopedRelation π ρ}
    (hR : ∀ {β : Type} {scope scope' : Scope π ρ} {q q' : Parser π ρ β},
      R scope q scope' q' → R' scope' q' scope q)
    {x y : Dialogue π ρ C α} (h : Matches R x y) : Matches R' y x := by
  induction h with
  | done a => exact .done a
  | stop h => exact .stop h
  | ask hq _ ih => exact .ask (hR hq) ih

/-- Dialogues in sequence ask for related expressions in sequence. -/
theorem Matches.bind {x y : Dialogue π ρ C α} {f g : α → Dialogue π ρ C β} (hxy : Matches R x y)
    (hfg : ∀ a, Matches R (f a) (g a)) : Matches R (x >>= f) (y >>= g) := by
  induction hxy with
  | done a => exact hfg a
  | stop h => exact .stop h
  | ask hq _ ih => exact .ask hq ih

/-- Asking for related expressions, as a relation between recognizers. -/
def matching [Cursor C T] (R : ScopedRelation π ρ) :
    Simulation (Dialogue π ρ C) (Dialogue π ρ C) (.identity fun _ : C => True) where
  rel := Matches R
  success := by
    rintro _ a c _ ⟨rfl, -⟩
    exact .done _
  failure := by
    intro _ r r' hr _
    rw [Correspondence.reason_identity.mp hr]
    exact .done _
  branch := by
    intro _ _ p p' next next' otherwise otherwise' c d hp hnext hotherwise
    refine hp.bind fun o => ?_
    cases o with
    | success a e => exact hnext a e e ⟨rfl, trivial⟩
    | noSuccess r =>
      by_cases hr : r.isFailure
      · simp only [hr, if_true]
        exact hotherwise r r (Correspondence.reason_identity.mpr rfl) hr
      · simp only [hr]
        exact .done _

end Dialogue

section Runs

variable {π : Type → Type} {C T ρ σ τ α : Type} {R : ScopedRelation π ρ}

/-- Held with answers that follow each other, dialogues that match follow each other. -/
theorem Dialogue.Matches.follows {S : σ → τ → Prop}
    {answer : {β : Type} → Scope π ρ → Origin → Parser π ρ β → Recognizer (Effect σ) C β}
    {answer' : {β : Type} → Scope π ρ → Origin → Parser π ρ β → Recognizer (Effect τ) C β}
    (h : ∀ {β : Type} {scope scope' : Scope π ρ} {origin origin'} {q q' : Parser π ρ β} {c : C},
      R scope q scope' q' →
        Follows S (fun _ => True) (answer scope origin q c) (answer' scope' origin' q' c))
    {x y : Dialogue π ρ C α} (hxy : x.Matches R y) :
    Follows S (fun _ => True) (x.run answer) (y.run answer') := by
  induction hxy with
  | done a => exact .pure trivial
  | stop halt => exact .halt _ _
  | ask hq _ ih => exact (h hq).bind fun o _ => ih o

variable [Cursor C T] [Primitive π] [Primitive.Runs π C] {env : Environment π ρ}

/-- If related expressions ask for related ones and are entered in the books alike, then with the
same bound the one comes to whatever the other comes to. -/
theorem Parser.eval_follows_of_matches
    (plan : ∀ {β : Type} {scope scope' : Scope π ρ} {p p' : Parser π ρ β}, R scope p scope' p' →
      ∀ fuel build build' (c : C),
        (p.plan env fuel ⟨scope, build⟩ c).Matches R (p'.plan env fuel ⟨scope', build'⟩ c))
    (books : ∀ {β : Type} {scope scope' : Scope π ρ} {p p' : Parser π ρ β}, R scope p scope' p' →
      ∀ q : Recognizer (Effect (Session C ρ)) C β, p'.attend env q = p.attend env q)
    {scope scope' : Scope π ρ} {p p' : Parser π ρ α} (h : R scope p scope' p') (fuel : Nat)
    (build build' : BuildId) (c : C) :
    Follows Session.SameMemos (fun _ => True) (p.eval env fuel ⟨scope, build⟩ c)
      (p'.eval env fuel ⟨scope', build'⟩ c) := by
  induction fuel generalizing α scope scope' build build' c with
  | zero => exact .halt _ _
  | succ n ih =>
    rw [eval_succ, eval_succ, books h]
    refine Follows.attend_self (fun _ hst => hst) (fun r key hst => hst.call r key)
      (fun r key o hst => hst.resolveCall r key o) p c ?_
    refine Dialogue.Matches.follows (fun hq => ?_) (plan h n build build' c)
    exact .update_bind (fun s t hst => hst.enter _ _ _ _) fun _ _ => ih hq _ _ _

end Runs

/-! ## Names and what they stand for -/

section Unfold

variable {π : Type → Type} {ρ α : Type} {name : String} {body : Parser π ρ ρ}

/-- The expression with the recursive parser in place of its name, if the name is not hidden. -/
def Parser.unfolded (p : Parser π ρ α) (name : String) (body : Parser π ρ ρ) (hidden : Bool) :
    Parser π ρ α :=
  if hidden then p else substitute name (.recursive name body) p

/-- Whether nothing that the recursive parser mentions gets another meaning in an expression. -/
def Parser.KeepsNames (p : Parser π ρ α) (name : String) (body : Parser π ρ ρ) : Prop :=
  p.All fun q => ∀ label, (Parser.recursive name body).Mentions label → ¬ q.Binds label

/-- Whether the first scope has the recursive parser where the second one has nothing. Behind it
they differ in builds only. The parsers in front of it are unfolded in the second scope, unless
they stand where the name is hidden by another parser of that name. -/
inductive Unfolds (name : String) (body : Parser π ρ ρ) : Bool → Scope π ρ → Scope π ρ → Prop where
  | start {build : BuildId} {outer outer' : Scope π ρ} (h : outer.bodies = outer'.bodies) :
    Unfolds name body false ((name, .live build body) :: outer) outer'
  | cons {hidden : Bool} {label : String} {build build' : BuildId} {p : Parser π ρ ρ}
    {scope scope' : Scope π ρ} (hlabel : ¬ (Parser.recursive name body).Mentions label)
    (hp : p.KeepsNames name body) (h : Unfolds name body hidden scope scope') :
    Unfolds name body (hidden || label = name) ((label, .live build p) :: scope)
      ((label, .live build' (p.unfolded name body (hidden || label = name))) :: scope')

/-- Whether the second expression does in its scope what the first one does in its own: either it is
the same one and the names that it mentions mean the same, or it is unfolded. -/
inductive Unfolding (name : String) (body : Parser π ρ ρ) : ScopedRelation π ρ where
  | alike {α : Type} {p : Parser π ρ α} {scope scope' : Scope π ρ}
    (h : Scope.Alike p.Mentions scope scope') : Unfolding name body scope p scope' p
  | unfolded {α : Type} {hidden : Bool} {p : Parser π ρ α} {scope scope' : Scope π ρ}
    (hp : p.KeepsNames name body) (h : Unfolds name body hidden scope scope') :
    Unfolding name body scope p scope' (p.unfolded name body hidden)

/-- Where the name is hidden, or for another one, what is found on both sides is related. -/
theorem Unfolds.meets {hidden : Bool} {scope scope' : Scope π ρ}
    (h : Unfolds name body hidden scope scope') {label : String}
    (hlabel : hidden = true ∨ label ≠ name) :
    Scope.Meets (Unfolding name body) label (scope.startingAt label) (scope'.startingAt label) := by
  induction h with
  | start h =>
    rcases hlabel with hhidden | hne
    · cases hhidden
    · rw [Scope.startingAt_cons, if_neg (Ne.symm hne)]
      exact (Scope.alike_of_bodies (F := fun _ => True) h).meets trivial .alike
  | @cons hidden label' build build' p scope scope' hlabel' hp h ih =>
    rw [Scope.startingAt_cons, Scope.startingAt_cons]
    split
    · rename_i heq
      subst heq
      exact .live (.unfolded hp (.cons hlabel' hp h))
    · rename_i hne
      refine ih ?_
      rcases hlabel with hhidden | hname
      · -- hidden by a parser further out, or else by this one, which has another name
        simp only [Bool.or_eq_true, decide_eq_true_eq] at hhidden
        by_cases hname : label = name
        · exact .inl (hhidden.resolve_right fun heq => hne (heq.trans hname.symm))
        · exact .inr hname
      · exact .inr hname

/-- Where the name is not hidden it stands for the recursive parser in the first scope, and what
that mentions means the same in the second one. -/
theorem Unfolds.startingAt {scope scope' : Scope π ρ} (h : Unfolds name body false scope scope') :
    ∃ build outer, scope.startingAt name = (name, .live build body) :: outer ∧
      Scope.Alike (Parser.recursive name body).Mentions outer scope' := by
  generalize hhidden : false = hidden at h
  induction h with
  | @start build outer outer' h =>
    exact ⟨build, outer, by rw [Scope.startingAt_cons, if_pos rfl], Scope.alike_of_bodies h⟩
  | @cons hidden label build build' p scope scope' hlabel hp h ih =>
    obtain ⟨hhidden, hne⟩ := Bool.or_eq_false_iff.mp hhidden.symm
    obtain ⟨build, outer, hstart, halike⟩ := ih hhidden.symm
    refine ⟨build, outer, ?_, .skip hlabel halike⟩
    rw [Scope.startingAt_cons, if_neg (of_decide_eq_false hne)]
    exact hstart

end Unfold

/-! ## One step -/

namespace Parser

variable {π : Type → Type} {C T ρ α : Type} {name : String} {body : Parser π ρ ρ} {hidden : Bool}

/-- Inside of a recursive parser of the same name, the name is hidden. -/
theorem unfolded_recursive (label : String) (p : Parser π ρ ρ) :
    (recursive label p).unfolded name body hidden =
      .recursive label (p.unfolded name body (hidden || label = name)) := by
  cases hidden with
  | true => rfl
  | false =>
    by_cases hname : label = name <;> simp [unfolded, substitute, rewrite, inPlaceOf, hname]

/-- Another name, or a hidden one, is left alone. -/
theorem unfolded_self {label : String} (h : hidden = true ∨ label ≠ name) :
    (self label : Parser π ρ ρ).unfolded name body hidden = .self label := by
  cases hidden with
  | true => rfl
  | false => simp [unfolded, substitute, rewrite, inPlaceOf, h.resolve_left Bool.false_ne_true]

/-- The name itself becomes the recursive parser. -/
theorem unfolded_self_of_not_hidden :
    (self name : Parser π ρ ρ).unfolded name body false = .recursive name body := by
  simp [unfolded, substitute, rewrite, inPlaceOf]

section

variable [Primitive π] [Cursor C T] {env : Environment π ρ} {fuel : Nat}

omit [Primitive π] in
/-- Unfolding changes no books. -/
theorem attend_unfolded (p : Parser π ρ α) (q : Recognizer (Effect (Session C ρ)) C α) :
    (p.unfolded name body hidden).attend env q = p.attend env q := by
  cases hidden with
  | true => rfl
  | false =>
    cases p with
    | self label =>
      by_cases hname : label = name
      · subst hname
        rw [unfolded_self_of_not_hidden]
        rfl
      · rw [unfolded_self (.inr hname)]
    | recursive label p => rw [unfolded_recursive]; rfl
    | _ => rfl

variable [Primitive.Runs π C]

/-- An unfolded expression runs its parts unfolded. -/
theorem step_unfolded {m : Type → Type u} [Monad m] [Halting m] {p : Parser π ρ α}
    (hp : p.isContextual = false)
    (run : {β : Type} → Scope π ρ → Origin → Parser π ρ β → Recognizer m C β)
    (ctx : Context π ρ) : (p.unfolded name body hidden).step env fuel run ctx =
      p.step env fuel
        (fun scope origin q => run scope origin (q.unfolded name body hidden)) ctx := by
  cases hidden with
  | true => rfl
  | false =>
    cases p with
    | recursive | self | define | rule => cases hp
    | not p =>
      -- a negation shows what it runs
      change Recognizer.not (substitute name (.recursive name body) p).not.describe _ =
        Recognizer.not p.not.describe _
      rw [describe, describe, describe_substitute name rfl]
      rfl
    | _ => rfl

/-! ### What the two expressions ask for -/

variable {scope scope' : Scope π ρ} {build build' : BuildId} {c : C}

omit [Primitive π] [Primitive.Runs π C] in
/-- Asking for what unfolds is asking for related expressions. -/
theorem related_ask_of_unfolding {p p' : Parser π ρ α} (h : Unfolding name body scope p scope' p')
    (origin origin' : Origin) : (Dialogue.matching (C := C) (Unfolding name body)).Related
      (fun c => .ask scope origin p c .done) fun c => .ask scope' origin' p' c .done := by
  rintro c _ ⟨rfl, -⟩
  exact .ask h .done

omit [Primitive π] [Primitive.Runs π C] in
/-- Aborts match. -/
theorem related_abort_of_matching (R : ScopedRelation π ρ) (expected : String) :
    (Dialogue.matching (C := C) R).Related (Recognizer.abort (α := α) expected)
      (Recognizer.abort expected) := by
  rintro c _ ⟨rfl, -⟩
  exact .done _

omit [Primitive π] [Primitive.Runs π C] in
/-- Where the bound is reached, both sides stop. -/
theorem related_stop_of_matching (R : ScopedRelation π ρ) (y : Dialogue π ρ C (Outcome C α))
    (hy : fuel = fuel → y = halt .outOfFuel) :
    (Dialogue.matching R).rel (halt .outOfFuel) y := by
  rw [hy rfl]
  exact .stop _

omit [Primitive π] in
/-- Primitive parsers match. -/
theorem related_primitive_of_matching (R : ScopedRelation π ρ) (x : π α) :
    (Dialogue.matching (C := C) R).Related (fun c => ofExcept (Primitive.Runs.parse x c))
      fun c => ofExcept (Primitive.Runs.parse x c) := by
  rintro c _ ⟨rfl, -⟩
  change Dialogue.Matches R (ofExcept (Primitive.Runs.parse x c))
    (ofExcept (Primitive.Runs.parse x c))
  cases Primitive.Runs.parse x c with
  | error h => exact .stop h
  | ok o => exact .done o

/-- Rules and definitions run outside of all recursive parsers. -/
theorem related_plan_of_rule (r : Rule) : (Dialogue.matching (C := C) (Unfolding name body)).Related
    ((rule r).plan env fuel ⟨scope, build⟩) ((rule r).plan env fuel ⟨scope', build'⟩) := by
  rw [plan, plan, step_rule, step_rule]
  split
  · exact related_abort_of_matching _ _
  · exact fun _ _ _ => .stop _
  · exact related_ask_of_unfolding (.alike (.nil _)) _ _

/-- An expression matches itself in scopes where its names mean the same. -/
theorem related_plan_of_alike {p : Parser π ρ α} (h : Scope.Alike p.Mentions scope scope') :
    (Dialogue.matching (C := C) (Unfolding name body)).Related (p.plan env fuel ⟨scope, build⟩)
      (p.plan env fuel ⟨scope', build'⟩) := by
  refine (Dialogue.matching (Unfolding name body)).related_step_of_parts (Nat.le_refl fuel)
    (fun hp => ?_) (fun hp => ?_) (related_primitive_of_matching _) (related_abort_of_matching _)
    (related_stop_of_matching _)
  · exact (eachPart_mentions hp).imp fun q hq origin =>
      related_ask_of_unfolding (.alike (h.mono hq)) origin origin
  · cases p with
    | recursive label p => exact related_ask_of_unfolding (.alike h.recursive) .same .same
    | self label =>
      have hmeets := h.meets (R := Unfolding name body) rfl .alike
      refine (Dialogue.matching _).related_self_of_meets hmeets (related_abort_of_matching _)
        fun hbody => ?_
      exact related_ask_of_unfolding hbody _ _
    | define site label => exact related_ask_of_unfolding (.alike (.nil _)) _ _
    | rule r => exact related_plan_of_rule r
    | _ => cases hp

/-- An expression matches its unfolding. -/
theorem related_plan_of_unfolds {p : Parser π ρ α} (hp : p.KeepsNames name body)
    (h : Unfolds name body hidden scope scope') :
    (Dialogue.matching (C := C) (Unfolding name body)).Related (p.plan env fuel ⟨scope, build⟩)
      ((p.unfolded name body hidden).plan env fuel ⟨scope', build'⟩) := by
  by_cases hcontextual : p.isContextual = true
  · cases p with
    | recursive label p =>
      rw [unfolded_recursive]
      have hlabel : ¬ (recursive name body).Mentions label := fun hmentions =>
        hp.1 label hmentions rfl
      exact related_ask_of_unfolding (.unfolded hp.2 (.cons hlabel hp.2 h)) .same .same
    | self label =>
      by_cases hname : hidden = true ∨ label ≠ name
      · rw [unfolded_self hname]
        refine (Dialogue.matching _).related_self_of_meets (h.meets hname)
          (related_abort_of_matching _) fun hbody => ?_
        exact related_ask_of_unfolding hbody _ _
      · -- the name on the one side is the recursive parser on the other
        obtain ⟨hhidden, hlabel⟩ := not_or.mp hname
        obtain rfl := Bool.eq_false_iff.mpr hhidden
        obtain rfl := Decidable.not_not.mp hlabel
        obtain ⟨inner, outer, hstart, halike⟩ := h.startingAt
        rw [unfolded_self_of_not_hidden, plan, step_self]
        simp only [hstart]
        exact related_ask_of_unfolding (.alike halike.recursive) _ _
    | define site label =>
      have hself : (define site label : Parser π ρ ρ).unfolded name body hidden =
          .define site label := by cases hidden <;> rfl
      rw [hself]
      exact related_ask_of_unfolding (.alike (.nil _)) _ _
    | rule r =>
      have hself : (rule r : Parser π ρ ρ).unfolded name body hidden = .rule r := by
        cases hidden <;> rfl
      rw [hself]
      exact related_plan_of_rule r
    | _ => cases hcontextual
  · -- any other expression asks for its parts, which are unfolded in the same scopes
    have hcontextual := Bool.eq_false_iff.mpr hcontextual
    rw [plan, plan, step_unfolded hcontextual]
    refine (Dialogue.matching (Unfolding name body)).related_step_of_parts (Nat.le_refl fuel)
      (fun _ => ?_) (fun hp => ?_) (related_primitive_of_matching _) (related_abort_of_matching _)
      (related_stop_of_matching _)
    · exact hp.eachPart.imp fun q hq origin =>
        related_ask_of_unfolding (.unfolded hq h) origin origin
    · cases hcontextual.symm.trans hp

/-- What unfolds matches, in either way to do so. -/
theorem matches_plan_of_unfolding {p p' : Parser π ρ α}
    (h : Unfolding name body scope p scope' p') (fuel : Nat) (build build' : BuildId) (c : C) :
    (p.plan env fuel ⟨scope, build⟩ c).Matches (Unfolding name body)
      (p'.plan env fuel ⟨scope', build'⟩ c) := by
  cases h with
  | alike h => exact related_plan_of_alike h c c ⟨rfl, trivial⟩
  | unfolded hp h => exact related_plan_of_unfolds hp h c c ⟨rfl, trivial⟩

omit [Primitive π] [Primitive.Runs π C] in
/-- What unfolds has the same books. -/
theorem attend_of_unfolding {p p' : Parser π ρ α} (h : Unfolding name body scope p scope' p')
    (q : Recognizer (Effect (Session C ρ)) C α) : p'.attend env q = p.attend env q := by
  cases h with
  | alike h => rfl
  | unfolded hp h => exact attend_unfolded _ q

end

/-! ## Whole runs -/

section

variable [Primitive π] [Cursor C T] [Primitive.Runs π C]

/-- With the same bound, the body of a recursive parser and what it unfolds to come to the same. -/
theorem eval_unfolded_follows (env : Environment π ρ) (hbody : body.KeepsNames name body)
    (fuel : Nat) (scope : Scope π ρ) (build build' : BuildId) (c : C) :
    Follows Session.SameMemos (fun _ => True)
        (body.eval env fuel ⟨(name, .live build body) :: scope, build⟩ c)
        ((substitute name (.recursive name body) body).eval env fuel ⟨scope, build'⟩ c) ∧
      Follows Session.SameMemos (fun _ => True)
        ((substitute name (.recursive name body) body).eval env fuel ⟨scope, build'⟩ c)
        (body.eval env fuel ⟨(name, .live build body) :: scope, build⟩ c) := by
  have h : Unfolding name body ((name, .live build body) :: scope) body scope
      (body.unfolded name body false) := .unfolded hbody (.start rfl)
  refine ⟨eval_follows_of_matches matches_plan_of_unfolding attend_of_unfolding h fuel _ _ c, ?_⟩
  -- back from the second side to the first one
  refine eval_follows_of_matches
    (R := fun _ scope' p' scope p => Unfolding name body scope p scope' p')
    (fun h fuel build build' c => ?_) (fun h q => (attend_of_unfolding h q).symm) h fuel _ _ c
  exact (matches_plan_of_unfolding h fuel _ _ c).symm id

end

end Parser

end Parsing
