import Parsing.Proofs.Parser.Forward
import Parsing.Proofs.Parser.Visits

/-!
# Keeping books in one input

A run reads one input, and calls rules only at its cursors. So a condition on what rules know, and
on the visits of rules that were written down, holds however a run ends if each step keeps it: a
call of a rule, the beginning of its parser, and its outcome (`KeptInRuns`). When a rule gets an
outcome it still has the entry that its call has made, and before the call it knew nothing of the
place: that may be used of the third step.
-/

namespace Parsing

open Recognizer Cursor

variable {π : Type → Type} {C T ρ α : Type} [Cursor C T] {env : Environment π ρ} {I : Inputs C}
  {i : InputId} {Q : Session C ρ → List Visit → Prop} {c : C}

/-- What is still known later is known later on. -/
theorem Session.Grows.trans {s t u : Session C ρ} (h : s.Grows i t) (h' : t.Grows i u) :
    s.Grows i u :=
  fun r key hi hs => h' r key hi (h r key hi hs)

/-- Whether all steps of runs that read an input keep a condition on what rules know and on the
visits of rules. -/
structure KeptInRuns (env : Environment π ρ) (I : Inputs C) (i : InputId)
    (Q : Session C ρ → List Visit → Prop) : Prop where
  of_memos {s t : Session C ρ} {visits : List Visit} : Q s visits → t.memos = s.memos → Q t visits
  /-- A rule that keeps no memo runs its parser. -/
  pass {s : Session C ρ} {visits : List Visit} {r : RuleId} (key : MemoKey) : Q s visits →
    (∀ build body, env.rule r ≠ .bound true build body) →
      Q s (visits ++ [.called r key] ++ [.invoked r key])
  call {s : Session C ρ} {visits : List Visit} (r : RuleId) {c : C} : Q s visits → I.Has c →
    input c = i → Q (s.call r (key c)).2 (visits ++ [.called r (key c)])
  invoke {s : Session C ρ} {visits : List Visit} (r : RuleId) (key : MemoKey) : Q s visits →
    Q s (visits ++ [.invoked r key])
  resolve {s s' : Session C ρ} {visits visits' : List Visit} {r : RuleId} {c : C}
    {o : Outcome C ρ} : Q s' visits' → I.Has c → input c = i → (s'.lookup r (key c)).isSome →
      Q s visits → s.lookup r (key c) = none → Q (s'.resolveCall r (key c) o) visits'

/-- Whether a condition holds while a run reads an input, which began in the session `s` and has
forgotten nothing of the input since. -/
def Booked (I : Inputs C) (i : InputId) (Q : Session C ρ → List Visit → Prop) (s : Session C ρ)
    (x : Session C ρ × List Visit) : Prop :=
  x.1.Forward I ∧ s.Grows i x.1 ∧ Q x.1 x.2

variable [Cursor.Lawful C]

/-- A rule that keeps a memo keeps the condition if its parser does. -/
theorem Booked.memoized (hQ : KeptInRuns env I i Q) {r : RuleId}
    {body : Recognizer (Effect (Session C ρ × List Visit)) C ρ} (hc : I.Has c) (hi : input c = i)
    (s₀ : Session C ρ) (hbody : ∀ s, Keeps (Booked I i Q s) (·.Within c) (body c)) :
    Keeps (Booked I i Q s₀) (·.Within c)
      (recorded (.called r (key c))
        (Recognizer.memoized r (fun d => recorded (.invoked r (key d)) (body d)) c)) := by
  subst hi
  rintro ⟨s, visits⟩ ⟨hforward, hgrows, hkept⟩
  have hgrows' : s₀.Grows (key c).1 (s.call r (key c)).2 := Session.Grows.call hgrows r
  have hcalled : Booked I (input c) Q s₀ ((s.call r (key c)).2, visits ++ [.called r (key c)]) :=
    ⟨hforward.call hc r, hgrows', hQ.call r hkept hc rfl⟩
  rw [run_recorded, run_memoized_added]
  rcases hentry : s.lookup r (key c) with _ | _ | o
  · have hstart : Booked I (input c) Q (s.call r (key c)).2
        ((s.call r (key c)).2, visits ++ [.called r (key c)] ++ [.invoked r (key c)]) :=
      ⟨hcalled.1, .refl _ _, hQ.invoke r (key c) hcalled.2.2⟩
    have h := hbody _ _ hstart
    dsimp only
    rw [run_recorded]
    rcases hrun : (body c).run ((s.call r (key c)).2,
      visits ++ [.called r (key c)] ++ [.invoked r (key c)]) with ⟨halt | o, s', visits'⟩
    all_goals simp only [hrun] at h ⊢
    · exact ⟨h.1, hcalled.2.1.trans h.2.1, h.2.2⟩
    · obtain ⟨⟨hforward', hgrows', hkept'⟩, ho⟩ := h
      -- what the call has put there is still there, since the run was in one input
      have hsome : (s'.lookup r (key c)).isSome :=
        hgrows' r (key c) rfl (Session.isSome_lookup_call_self s r (key c))
      exact ⟨⟨hforward'.resolveCall hc ho r, (hcalled.2.1.trans hgrows').resolveCall o,
        hQ.resolve hkept' hc rfl hsome hkept hentry⟩, ho⟩
  · exact ⟨hcalled, Outcome.within_noSuccess _ _⟩
  · exact ⟨hcalled, hforward.resolved hc hentry⟩

variable [Primitive π] [Primitive.Runs π C] [Primitive.Lawful π C]

/-- However an audited run ends, a condition that its steps keep holds. -/
theorem Parser.audit_keeps (hQ : KeptInRuns env I i Q) (s₀ : Session C ρ) (fuel : Nat)
    (ctx : Context π ρ) (p : Parser π ρ α) (hc : I.Has c) (hi : input c = i) :
    Keeps (Booked I i Q s₀) (·.Within c) (p.audit env fuel ctx c) := by
  induction fuel generalizing α s₀ ctx c with
  | zero => exact .halt fun _ h => h
  | succ n ih =>
    -- by induction for the runs inside, since entering them changes no memos
    have below (s₀ : Session C ρ) : Keeps (Booked I i Q s₀) (·.Within c)
        ((p.plan env n ctx c).run (auditAnswer env n ctx.build)) := by
      refine .run (fun _ _ h => h) (fun scope origin q d hd => ?_)
        (ahead_plan env n ctx p (After.refl c))
      refine .update_bind_added (fun s visits h => ?_) fun build =>
        ih s₀ _ q (hc.after hd) (hd.input_eq.trans hi)
      exact ⟨h.1.of_memos (s.memos_enter _ _), h.2.1.of_memos (s.memos_enter _ _),
        hQ.of_memos h.2.2 (s.memos_enter _ _)⟩
    rw [audit_succ]
    induction p using books with
    | none p hbooks =>
      have hrule : p.isRule = false := by
        cases p <;> first | rfl | cases hbooks
      rw [recording_eq_self hrule, recording_eq_self hrule, attend_eq_self hbooks]
      exact below s₀
    | tally name p =>
      rw [recording_eq_self rfl, attend_tally, recording_eq_self rfl]
      refine (below s₀).bind fun o ho => ?_
      cases o with
      | success a rest =>
        refine .update_bind_added (fun s visits h => ?_) fun _ => .pure ho
        exact ⟨h.1.of_memos rfl, h.2.1.of_memos rfl, hQ.of_memos h.2.2 rfl⟩
      | noSuccess r => exact .pure ho
    | rule r =>
      change Keeps _ _ (recorded (.called r.id (key c)) ((rule r).attend env
        (fun d => recorded (.invoked r.id (key d)) _) c))
      rw [attend_rule]
      split
      · exact Booked.memoized hQ hc hi s₀ below
      · rintro ⟨s, visits⟩ ⟨hforward, hgrows, hkept⟩
        rw [run_recorded, run_recorded]
        exact below s₀ _ ⟨hforward, hgrows, hQ.pass (key c) hkept ‹_›⟩

/-- However a run ends, a condition that its steps keep goes on with the visits of the run. -/
theorem KeptInRuns.run (hQ : KeptInRuns env I i Q) {s : Session C ρ} (h : Q s [])
    (hforward : s.Forward I) (fuel : Nat) (ctx : Context π ρ) (p : Parser π ρ α) (hc : I.Has c)
    (hi : input c = i) : Q (p.run env fuel ctx c s).2 (p.visits env fuel ctx c s) := by
  have hstart : Booked I i Q s (s, []) := ⟨hforward, .refl _ s, h⟩
  have hkept := ((p.audit_keeps hQ s fuel ctx hc hi).state hstart).2.2
  have herases : ((p.audit env fuel ctx c).run (s, [])).2.1 = (p.run env fuel ctx c s).2 :=
    congrArg Prod.snd (erases_audit env fuel ctx p c s [])
  rwa [herases] at hkept

end Parsing
