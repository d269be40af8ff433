import Parsing.Proofs.Grammar.History

/-!
# What was parsed before does not matter

In every state that parses lead to, an expression comes to one and the same outcome, or to none:
what it comes to without memos, or the error of a rule that is called where it is at work
(`GrammarParser.Reachable.runsTo_iff`). It comes to no other outcome by `Parser.eval_comes`. And it
does come to that outcome whatever is remembered: without memos by `eval_follows_plain`, and
otherwise because on the way to the rule that is re-entered everything else returns without memos
(`Invocation.Reenters.ready`).
-/

namespace Parsing

open Recognizer Cursor Relation

variable {π : Type → Type} {C T ρ α : Type} [Cursor C T] [Primitive π] [Primitive.Runs π C]
  {env : Environment π ρ} {I : Inputs C} {base c : C} {P : RuleId → C → Prop}

namespace Parser

variable {ctx : Context π ρ} {p : Parser π ρ α} {s : Session C ρ} {o : Outcome C α}

/-- Whether an expression comes to an outcome, for all bounds that are great enough. -/
def RunsTo (env : Environment π ρ) (ctx : Context π ρ) (p : Parser π ρ α) (c : C) (s : Session C ρ)
    (o : Outcome C α) : Prop :=
  ∃ n, ∀ m, n ≤ m → (p.run env m ctx c s).1 = .ok o

/-- What a run comes to, every run with a greater bound comes to. -/
theorem RunsTo.of_run {n : ℕ} (h : (p.run env n ctx c s).1 = .ok o) : p.RunsTo env ctx c s o := by
  refine ⟨n, fun m hnm => ?_⟩
  obtain ⟨t, ht, -⟩ := p.eval_follows env hnm rfl c s s rfl o _ (Prod.ext h rfl)
  exact congrArg Prod.fst ht

end Parser

variable [Cursor.Lawful C] [Primitive.Lawful π C]

/-! ## Whatever is remembered -/

namespace Invocation

variable {k l : Invocation π ρ C} {Q R : Session C ρ → Prop}

omit [Cursor.Lawful C] [Primitive.Lawful π C] in
/-- Whether an invocation comes to an outcome for a bound that is great enough, whatever is
remembered and whichever rules are at work above it, from states that satisfy a condition. -/
def Ready (env : Environment π ρ) (I : Inputs C) (k : Invocation π ρ C) (Q : Session C ρ → Prop) :
    Prop :=
  ∀ ctx P s, ctx.scope.bodies = k.bodies → k.Below env P → s.Known I env.Recalls P → Q s →
    ∃ n o s', (k.parser.eval env n ctx k.cursor).run s = (.ok o, s')

/-- What returns without memos is answered with that, and nothing that was known is lost. -/
theorem Returns.exists_answer {scope : Scope π ρ} {q : Parser π ρ α} (hc : I.Has c)
    {o : Outcome C α} (h : Returns env ⟨scope.bodies, q, c⟩ o)
    (hP : Below env ⟨scope.bodies, q, c⟩ P) (hlate : ∀ n, env.Late n P) (build : BuildId)
    (origin : Origin) {s : Session C ρ} (hs : s.Known I env.Recalls P) :
    ∃ n s', (Parser.answer env n build scope origin q c).run s = (.ok o, s') ∧
      s'.Known I env.Recalls P ∧ s.Grows (input c) s' := by
  obtain ⟨n, t, hplain⟩ := h
  have hmemos := s.memos_enter build origin
  have hs₁ := hs.of_memos hmemos
  let ctx : Context π ρ := ⟨scope, (s.enter build origin).1⟩
  have hscope : (Scope.ofBodies scope.bodies).bodies = ctx.scope.bodies := Scope.bodies_ofBodies _
  obtain ⟨s', hrun, -⟩ :=
    q.eval_follows_plain (Nat.le_refl n) (hlate n) hscope hc t _ hs₁.agrees o _
    (Prod.ext hplain rfl)
  have hforward : (s.enter build origin).2.Forward I :=
    ⟨fun hd ho => (hs₁.resolved hd ho).1, fun _ _ => trivial⟩
  obtain ⟨⟨-, hgrows⟩, -⟩ := (q.eval_keeps_forward env s n ctx hc).of_ok
    ⟨hforward, (Session.Grows.refl _ s).of_memos hmemos⟩ hrun
  exact ⟨n, s', hrun, ((q.eval_comes n ctx hc hP).of_ok hs₁ hrun).1, hgrows⟩

end Invocation

/-- A dialogue that leads to an invocation that does not return without memos ends with the error
that this invocation comes to with memos. -/
theorem Dialogue.Reaches.exists_run {Q : Session C ρ → Prop} {x : Dialogue π ρ C (Outcome C α)}
    {l : Invocation π ρ C} (h : x.Reaches (Invocation.Returns env) l) (hx : x.Ahead .any base)
    (hfaithful : x.Faithful) (hbase : I.Has base) (hl : l.Stuck env)
    (hQ : ∀ s t, s.Grows (input base) t → Q s → Q t) (hready : l.Ready env I Q) (build : BuildId)
    (hP : ∀ k, x.Reaches (Invocation.Returns env) k → k.Below env P) {s : Session C ρ}
    (hs : s.Known I env.Recalls P) (hq : Q s) :
    ∃ n o s', (x.run (Parser.answer env n build)).run s = (.ok o, s') := by
  have hlate (n : ℕ) : env.Late n P := (hP l h).late hl n
  induction h generalizing s with
  | @here β scope origin q c next =>
    cases hx with
    | ask _ hc _ =>
    cases hfaithful with
    | ask error _ =>
    -- the answer is an error, and the dialogue ends with it
    have hmemos := s.memos_enter build origin
    have hs₁ := hs.of_memos hmemos
    obtain ⟨n, o, s', hrun⟩ := hready ⟨scope, (s.enter build origin).1⟩ P _ rfl (hP _ .here) hs₁
      (hQ s _ ((Session.Grows.refl _ s).of_memos hmemos) hq)
    rcases ((q.eval_comes n ⟨scope, _⟩ (hbase.after hc) (hP _ .here)).of_ok hs₁ hrun).2.2 with
      hreturns | ⟨d, rfl, -⟩
    · exact absurd hreturns (hl o)
    · have hanswer : (Parser.answer env n build scope origin q c).run s =
          (.ok (.noSuccess (leftRecursion d)), s') := hrun
      refine ⟨n, .noSuccess (leftRecursion d), s', ?_⟩
      rw [Dialogue.run, Effect.run_bind, hanswer]
      change ((next (.noSuccess (leftRecursion d))).run _).run s' = _
      rw [error _ rfl]
      rfl
  | @later β scope origin q c next o l ho hreaches ih =>
    cases hx with
    | ask _ hc hnext =>
    cases hfaithful with
    | ask _ faithful =>
    -- an earlier question is answered as without memos, and nothing that was known is lost
    obtain ⟨n, s₁, hrun, hs₁, hgrows⟩ :=
      ho.exists_answer (hbase.after hc) (hP _ .here) hlate build origin hs
    have hwithin : o.Within c := ho.within (k := ⟨_, q, c⟩) (hbase.after hc)
    obtain ⟨m, o', t, hrest⟩ := ih (hnext o hwithin fun _ => trivial) (faithful o) hl hready
      (fun k hk => hP k (.later ho hk)) hs₁ (hQ s s₁ (hc.input_eq ▸ hgrows) hq)
    obtain ⟨j, t', hrun'⟩ := exists_run_ask hrun hrest
    exact ⟨j, o', t', hrun'⟩

namespace Invocation

variable {k l : Invocation π ρ C} {Q R : Session C ρ → Prop} {r : Rule} {build : BuildId}
  {body : Parser π ρ ρ} {bodies : List (String × Option (Parser π ρ ρ))}

omit [Primitive.Lawful π C] in
/-- A rule comes to an outcome if its parser does, whenever the rule knows nothing of the place. -/
theorem Ready.rule (hr : env.rule r.id = .bound true build body) (hc : I.Has c)
    (hQ : ∀ s, Q s → s.lookup r.id (key c) = none → R (s.call r.id (key c)).2)
    (h : Ready env I ⟨[], body, c⟩ R) : Ready env I ⟨bodies, .rule r, c⟩ Q := by
  intro ctx P s _ hP hs hq
  refine Parser.exists_run_rule_of_bound hr ctx c s fun hnone => ?_
  exact h ⟨[], build⟩ _ _ rfl (hP.insert hr) (hs.call hc hnone) (hQ s hq hnone)

omit [Cursor.Lawful C] [Primitive.Lawful π C] in
/-- A rule leads to nothing but its parser. -/
theorem Invokes.eq_of_rule (hr : env.rule r.id = .bound true build body)
    (h : Invokes env ⟨bodies, .rule r, c⟩ l) : l = ⟨[], body, c⟩ := by
  obtain ⟨n, hreaches⟩ := h
  rw [Parser.plan, Parser.step_rule, hr] at hreaches
  cases hreaches with
  | here => rfl
  | later _ h => cases h

/-- What leads to an invocation that does not return without memos comes to an outcome if that
does. -/
theorem Invokes.ready (hkl : k.Invokes env l) (hl : l.Stuck env) (hk : I.Has k.cursor)
    (hQ : ∀ s t, s.Grows (input k.cursor) t → Q s → Q t) (h : l.Ready env I Q) :
    k.Ready env I Q := by
  obtain ⟨bodies, p, c⟩ := k
  have hplan (ctx : Context π ρ) (P) (s) (hctx : ctx.scope.bodies = bodies)
      (hP : Below env ⟨bodies, p, c⟩ P) (hs : s.Known I env.Recalls P) (hq : Q s) :
      ∃ n o s', ((p.plan env n ctx c).run (Parser.answer env n ctx.build)).run s = (.ok o, s') := by
    subst hctx
    obtain ⟨n, hreaches⟩ := hkl
    have hreaches := (Parser.refines_plan env (Nat.le_refl n) (Scope.bodies_ofBodies _) p c :
      (p.plan env n _ c).Refines (p.plan env n ctx c)).reaches hreaches
    obtain ⟨m, o, s', hrun⟩ := hreaches.exists_run (Parser.ahead_plan env n ctx p (After.refl c))
      (p.faithful_plan env n ctx c) hk hl hQ h ctx.build (fun k hk => hP.tail (.of_reaches hk)) hs
      hq
    obtain ⟨j, t, hrun'⟩ := Parser.exists_run_plan hrun
    exact ⟨j, o, t, hrun'⟩
  by_cases hrule : p.isRule = true
  · cases p with
    | rule r =>
      by_cases hmemo : ∃ build body, env.rule r.id = .bound true build body
      · -- a rule with a memo leads to its parser only, and marks the place before that
        obtain ⟨build, body, hr⟩ := hmemo
        cases hkl.eq_of_rule hr
        have hgrows (s : Session C ρ) : s.Grows (key c).1 (s.call r.id (key c)).2 :=
          (Session.Grows.refl _ s).call r.id
        exact .rule hr hk (fun s hq _ => hQ s _ (hgrows s) hq) h
      · intro ctx P s hctx hP hs hq
        obtain ⟨n, o, s', hrun⟩ := hplan ctx P s hctx hP hs hq
        refine ⟨n + 1, o, s', ?_⟩
        rw [Parser.eval_succ, Parser.attend_rule]
        split
        · exact absurd ⟨_, _, ‹_›⟩ hmemo
        · exact hrun
    | _ => cases hrule
  · intro ctx P s hctx hP hs hq
    obtain ⟨n, o, s', hrun⟩ := hplan ctx P s hctx hP hs hq
    refine ⟨n + 1, o, _, Prod.ext ?_ rfl⟩
    rw [Parser.eval_succ, Parser.fst_run_attend (Bool.eq_false_iff.mpr hrule), hrun]

/-- What leads, step by step, to an invocation that does not return comes to an outcome if that
does. -/
theorem Ready.of_reflTransGen (hpath : ReflTransGen (Invokes env) k l) (hl : l.Stuck env)
    (hk : I.Has k.cursor) (hQ : ∀ s t, s.Grows (input k.cursor) t → Q s → Q t)
    (h : l.Ready env I Q) : k.Ready env I Q := by
  -- back from the end of the path; all places on it are in one input
  induction hpath using ReflTransGen.head_induction_on with
  | refl => exact h
  | head hinvokes hpath ih =>
    have hafter := hinvokes.after hk
    rw [← hafter.input_eq] at hQ
    exact hinvokes.ready (stuck_of_reflTransGen hpath hl) hk (hafter.input_eq ▸ hQ)
      (ih (hk.after hafter) hQ)

/-- What leads to a rule that is re-entered comes to an outcome: the first time that the rule is
called it may know nothing, but the second time it is at work at least. -/
theorem Reenters.ready (hk : I.Has k.cursor) {d : C} (h : k.Reenters env d) :
    k.Ready env I fun _ => True := by
  obtain ⟨bodies, r, build, body, hr, hpath, hcycle⟩ := h
  have hstuck := stuck_of_cycle hcycle
  have hd : I.Has d := hk.after (after_of_reflTransGen hk hpath)
  -- a rule that knows something comes to an outcome at once
  have hagain : Ready env I ⟨bodies, .rule r, d⟩ fun s => (s.lookup r.id (key d)).isSome := by
    refine Ready.rule (R := fun _ => False) hr hd (fun s hsome hnone => ?_)
      fun _ _ _ _ _ _ h => h.elim
    rw [hnone] at hsome
    cases hsome
  -- and from its parser the cycle leads back to it
  have hbody : Ready env I ⟨[], body, d⟩ fun s => (s.lookup r.id (key d)).isSome := by
    obtain ⟨l, hinvokes, hback⟩ := TransGen.head'_iff.mp hcycle
    cases hinvokes.eq_of_rule hr
    exact .of_reflTransGen hback hstuck hd (fun s t hgrows hsome => hgrows _ _ rfl hsome) hagain
  refine .of_reflTransGen hpath hstuck hk (fun _ _ _ h => h) ?_
  exact .rule hr hd (fun s _ _ => s.isSome_lookup_call_self r.id (key d)) hbody

/-- What an invocation comes to it comes to whatever is remembered. -/
theorem Comes.runsTo {p : Parser π ρ α} {ctx : Context π ρ} (hc : I.Has c) {o : Outcome C α}
    (h : Comes env ⟨ctx.scope.bodies, p, c⟩ o) {s : Session C ρ}
    (hs : s.Known I env.Recalls fun _ _ => False) : p.RunsTo env ctx c s o := by
  rcases h with ⟨n, t, hplain⟩ | ⟨d, rfl, hreenters⟩
  · obtain ⟨t', ht', -⟩ := p.eval_follows_plain (Nat.le_refl n) (fun _ _ h => h.elim)
      (Scope.bodies_ofBodies _) hc t s hs.agrees o _ (Prod.ext hplain rfl)
    exact .of_run (congrArg Prod.fst ht')
  · obtain ⟨n, o, s', hrun⟩ := hreenters.ready hc ctx _ s rfl (.of_false _) hs trivial
    have hcomes := ((p.eval_comes n ctx hc (.of_false _)).of_ok hs hrun).2.2
    rw [← hcomes.unique hc (.inr ⟨d, rfl, hreenters⟩)]
    exact .of_run (congrArg Prod.fst hrun)

end Invocation

/-! ## After any parses -/

namespace GrammarParser.Reachable

variable {g g' : GrammarParser} {s t : Session C ρ} {p : Parser π ρ α} {ctx ctx' : Context π ρ}

/-- After any parses, an expression comes to what is to be remembered of it, and to nothing else. -/
theorem runsTo_iff (h : Reachable I env g s) (hc : I.Has c) {o : Outcome C α} :
    p.RunsTo env ctx c s o ↔ Invocation.Comes env ⟨ctx.scope.bodies, p, c⟩ o := by
  constructor
  · rintro ⟨n, hrun⟩
    exact ((p.eval_comes n ctx hc (.of_false _)).of_ok h.recalls
      (Prod.ext (hrun n (Nat.le_refl n)) rfl)).2.2
  · exact fun hcomes => hcomes.runsTo hc h.recalls

/-- If the same is seen of an expression at two places as long as nothing is remembered, then the
same is seen of it there whatever was parsed before. -/
theorem exists_runsTo {d : C} {X : Type} {view view' : Outcome C α → X}
    (hfresh : ∀ n, (p.run env n ctx c {}).1.map view = (p.run env n ctx' d {}).1.map view')
    (hs : Reachable I env g s) (ht : Reachable I env g' t) (hc : I.Has c) (hd : I.Has d) {x : X}
    (h : ∃ o, p.RunsTo env ctx c s o ∧ view o = x) :
    ∃ o, p.RunsTo env ctx' d t o ∧ view' o = x := by
  have hstart : Reachable I env g {} := .start rfl
  obtain ⟨o, hrun, rfl⟩ := h
  obtain ⟨n, hn⟩ := (hstart.runsTo_iff hc).mpr ((hs.runsTo_iff hc).mp hrun)
  have hview := hfresh n
  rw [hn n (Nat.le_refl n)] at hview
  rcases hrun' : (p.run env n ctx' d {}).1 with _ | o'
  all_goals rw [hrun'] at hview
  · cases hview
  · refine ⟨o', ?_, (Except.ok.inj hview).symm⟩
    exact (ht.runsTo_iff hd).mpr ((hstart.runsTo_iff hd).mp (.of_run hrun'))

/-- If two expressions show the same from the start, they show the same after any parses. -/
theorem exists_runsTo_iff {d : C} {X : Type} {view view' : Outcome C α → X}
    (hfresh : ∀ n, (p.run env n ctx c {}).1.map view = (p.run env n ctx' d {}).1.map view')
    (hs : Reachable I env g s) (ht : Reachable I env g' t) (hc : I.Has c) (hd : I.Has d) {x : X} :
    (∃ o, p.RunsTo env ctx c s o ∧ view o = x) ↔ ∃ o, p.RunsTo env ctx' d t o ∧ view' o = x :=
  ⟨exists_runsTo hfresh hs ht hc hd, exists_runsTo (fun n => (hfresh n).symm) ht hs hd hc⟩

end GrammarParser.Reachable

end Parsing
