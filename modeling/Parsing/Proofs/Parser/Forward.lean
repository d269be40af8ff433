import Parsing.Proofs.Parser.Conditions

/-!
# What every run keeps

A run may end anywhere, with an outcome or without one, and leaves what its rules were at just then.
Two things are certain all the same: outcomes that rules remember still leave later cursors only
(`Session.Forward`), and no rule has forgotten any place of the input that is read
(`Session.Grows`).
-/

namespace Parsing

open Recognizer Cursor

/-! ## Sessions -/

namespace Session

variable {C T ρ : Type} {r : RuleId} {key : MemoKey}

/-- Whether what rules know of the places of an input is still known, though it may have changed. -/
def Grows (i : InputId) (s t : Session C ρ) : Prop :=
  ∀ r key, key.1 = i → (s.lookup r key).isSome → (t.lookup r key).isSome

/-- What is known is known. -/
theorem Grows.refl (i : InputId) (s : Session C ρ) : s.Grows i s :=
  fun _ _ _ h => h

/-- What is known depends on the memos of a session only. -/
theorem Grows.of_memos {i : InputId} {s t u : Session C ρ} (h : s.Grows i t)
    (htu : u.memos = t.memos) : s.Grows i u := by
  intro r key hi hs
  rw [lookup_congr htu]
  exact h r key hi hs

/-- A call in an input loses nothing that is known of it. -/
theorem Grows.call {s t : Session C ρ} (h : s.Grows key.1 t) (r : RuleId) :
    s.Grows key.1 (t.call r key).2 :=
  fun r' key' hi hs => isSome_lookup_call hi (h r' key' hi hs)

/-- Resolving a call loses nothing that is known. -/
theorem Grows.resolveCall {s t : Session C ρ} {i : InputId} (h : s.Grows i t)
    (o : Outcome C ρ) : s.Grows i (t.resolveCall r key o) :=
  fun r' key' hi hs => isSome_lookup_resolveCall (h r' key' hi hs)

variable [Cursor C T] {I : Inputs C} {s : Session C ρ} {c : C}

/-- Whether the outcomes that rules remember leave later cursors only. -/
def Forward (I : Inputs C) (s : Session C ρ) : Prop :=
  s.Known I (fun _ c o => o.Within c) fun _ _ => True

variable [Cursor.Lawful C]

/-- A call lets no rule remember an outcome. -/
theorem Forward.call (h : s.Forward I) (hc : I.Has c) (r : RuleId) :
    (s.call r (Cursor.key c)).2.Forward I := by
  rcases hentry : s.lookup r (Cursor.key c) with _ | e
  · exact ⟨fun hd ho => (Known.call h hc hentry).resolved hd ho, fun _ _ => trivial⟩
  · exact Known.call_of_lookup h hentry

/-- An outcome that leaves a later cursor may be remembered. -/
theorem Forward.resolveCall {o : Outcome C ρ} (h : s.Forward I) (hc : I.Has c) (ho : o.Within c)
    (r : RuleId) : (s.resolveCall r (Cursor.key c) o).Forward I :=
  Known.resolveCall h hc ho fun _ _ _ _ => trivial

end Session

/-! ## Runs -/

variable {π : Type → Type} {C T ρ α : Type} [Cursor C T] [Cursor.Lawful C] [Primitive π]
  [Primitive.Runs π C] [Primitive.Lawful π C] {I : Inputs C} {c : C}

/-- However a run ends, the outcomes that are remembered leave later cursors only, nothing of the
input is forgotten, and the outcome of the run, if there is one, leaves a later cursor as well. -/
theorem Parser.eval_keeps_forward (env : Environment π ρ) (s : Session C ρ) (fuel : Nat)
    (ctx : Context π ρ) (p : Parser π ρ α) (hc : I.Has c) :
    Keeps (fun t => t.Forward I ∧ s.Grows (input c) t) (·.Within c) (p.eval env fuel ctx c) := by
  -- the cursor moves on, but in one input
  generalize hi : input c = i
  induction fuel generalizing α ctx c with
  | zero => exact .halt fun _ ht => ht
  | succ n ih =>
    have below : Keeps (fun t => t.Forward I ∧ s.Grows i t) (·.Within c)
        ((p.plan env n ctx c).run (answer env n ctx.build)) := by
      refine .run (fun _ _ ht => ht) (fun scope origin q d hd => ?_)
        (ahead_plan env n ctx p (After.refl c))
      refine .update_bind (fun t ht => ?_) fun build =>
        ih _ q (hc.after hd) (hd.input_eq.trans hi)
      exact ⟨ht.1.of_memos (t.memos_enter _ _), ht.2.of_memos (t.memos_enter _ _)⟩
    rw [eval_succ]
    refine .attend (fun t _ ht => ⟨ht.1.of_memos rfl, ht.2.of_memos rfl⟩) (fun hrule => ?_) below
    cases p with
    | rule r =>
      rw [attend_rule]
      split
      case h_2 => exact below
      case h_1 build body hr =>
        have hkey : (key c).1 = i := hi
        refine .memoized (fun t ht => ⟨ht.1.call hc r.id, ?_⟩)
          (fun t o ht ho => ⟨ht.1.resolveCall hc ho r.id, ht.2.resolveCall o⟩)
          (fun t o ht hentry => ht.1.resolved hc hentry) (Outcome.within_noSuccess _ _) below
        rw [← hkey]
        exact Session.Grows.call (hkey ▸ ht.2) r.id
    | _ => cases hrule

/-- After a run the outcomes that rules remember still leave later cursors only. -/
theorem Session.Forward.run {s : Session C ρ} (hs : s.Forward I) (p : Parser π ρ α)
    (env : Environment π ρ) (fuel : Nat) (ctx : Context π ρ) (hc : I.Has c) :
    (p.run env fuel ctx c s).2.Forward I :=
  ((p.eval_keeps_forward env s fuel ctx hc).state ⟨hs, .refl _ s⟩).1

end Parsing
