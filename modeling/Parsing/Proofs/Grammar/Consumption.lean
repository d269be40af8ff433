import Parsing.Proofs.Grammar.History
import Parsing.Proofs.Parser.Lockstep

/-!
# What a parse consumes

Every outcome has a place in the input (`Outcome.Located`): a success leaves the cursor that some
number of single steps lead to, and a report names the location of such a cursor. Primitive parsers
have it that way (`Primitive.Located`). For everything else it follows from a run being in lockstep
with itself, where every cursor of the opened inputs is paired with itself (`Inputs.pairing`).

What rules remember is no exception, whatever was parsed before and whether it came to an outcome or
not (`Session.Reached`, `Session.Reached.lockstep`).
-/

namespace Parsing

open Recognizer Cursor

/-! ## Outcomes and their places -/

section Located

variable {C T α : Type} [Cursor C T] {c : C}

/-- Whether an outcome leaves, or names, a place ahead of a cursor. -/
def Outcome.Located (c : C) : Outcome C α → Prop
  | .success _ d => After c d
  | .noSuccess r => ∃ d, After c d ∧ r.location = Cursor.location d

/-- An outcome that has a place is in lockstep with itself. -/
theorem Outcome.lockstep_self {o : Outcome C α} : o.Lockstep c c o ↔ o.Located c := by
  constructor
  · intro h
    cases h with
    | success a hstep => exact hstep.after_left
    | noSuccess _ _ hstep hl _ => exact ⟨_, hstep.after_left, hl⟩
  · intro h
    cases o with
    | success a d =>
      obtain ⟨n, rfl⟩ := h
      exact .success a ⟨n, rfl, rfl⟩
    | noSuccess r =>
      obtain ⟨_, ⟨n, rfl⟩, hl⟩ := h
      exact .noSuccess rfl rfl ⟨n, rfl, rfl⟩ hl hl

/-- Primitive parsers that only move forward, and report somewhere ahead of where they began. -/
class Primitive.Located (π : Type → Type) (C : Type) {T : outParam Type} [Cursor C T]
    [Primitive.Runs π C] : Prop extends Primitive.Lawful π C where
  location_of_noSuccess {α : Type} {p : π α} {c : C} {reason : NoSuccess} :
    Primitive.Runs.parse p c = .ok (.noSuccess reason) →
      ∃ d, After c d ∧ reason.location = Cursor.location d

/-- What is located by the laws of a primitive parser is located in its outcome. -/
theorem Primitive.Located.located {π : Type → Type} [Primitive.Runs π C] [Primitive.Located π C]
    {p : π α} {o : Outcome C α} (h : Primitive.Runs.parse p c = .ok o) : o.Located c := by
  cases o with
  | success a d => exact Primitive.Lawful.after_of_success h
  | noSuccess r => exact Primitive.Located.location_of_noSuccess h

/-- A test on a token reports where it began. -/
theorem location_of_satisfy {expected : String} {accepts : T → Bool} {reason : NoSuccess}
    (h : satisfy (m := Except Halt) expected accepts c = .ok (.noSuccess reason)) :
    reason.location = Cursor.location c := by
  rw [satisfy] at h
  split at h
  · split at h
    · cases h
    · cases h
      rfl
  · cases h
    rfl

instance : Primitive.Located (TokenTest T) C where
  location_of_noSuccess {_ p c _} h := by
    cases p
    exact ⟨c, After.refl c, location_of_satisfy h⟩

end Located

section LocatedText

variable {C α : Type} [TextCursor C] {c : C}

/-- A scanner reports where it began. -/
theorem location_of_scan {s : Scanner α} {reason : NoSuccess}
    (h : scan (m := Except Halt) s c = .ok (.noSuccess reason)) :
    reason.location = Cursor.location c := by
  rw [scan] at h
  split at h
  · cases h
    rfl
  · split at h <;> cases h

instance [TextCursor.Lawful C] : Primitive.Located TextPrimitive C where
  location_of_noSuccess {_ p c _} h := by
    rcases p with test | s
    · exact Primitive.Located.location_of_noSuccess (p := test) (c := c) h
    · exact ⟨c, After.refl c, location_of_scan h⟩

end LocatedText

/-! ## Lockstep of a run with itself -/

section Identity

variable {π : Type → Type} {C T ρ α : Type} [Cursor C T] [Cursor.Lawful C] (I : Inputs C)

/-- Every cursor of the opened inputs, with itself. -/
def Inputs.pairing : Pairing C C where
  paired c d := c = d ∧ I.Has c
  paired_next := by
    rintro c _ ⟨rfl, hc⟩
    exact ⟨rfl, hc.after (After.refl c).next⟩
  current_eq h := congrArg Cursor.current h.1
  isEmpty_eq h := congrArg Cursor.isEmpty h.1
  input_eq_iff h h' := by rw [h.1, h'.1]
  eq_of_key_left := by
    rintro c c' _ _ ⟨rfl, hc⟩ ⟨rfl, hc'⟩ hkey
    exact ⟨Inputs.eq_of_key_eq hc hc' hkey, Inputs.eq_of_key_eq hc hc' hkey⟩
  eq_of_key_right := by
    rintro c c' _ _ ⟨rfl, hc⟩ ⟨rfl, hc'⟩ hkey
    exact ⟨Inputs.eq_of_key_eq hc hc' hkey, Inputs.eq_of_key_eq hc hc' hkey⟩

variable [Primitive.Runs π C] [Primitive.Located π C]

/-- With cursors paired with themselves, every expression is suitable. -/
theorem Inputs.suits_pairing (p : Parser π ρ α) : I.pairing.Suits p := by
  cases p with
  | primitive x =>
    rintro c _ ⟨rfl, -⟩
    rcases hparse : Primitive.Runs.parse x c with halt | o
    · exact .halt halt
    · exact .value (Outcome.lockstep_self.mpr (Primitive.Located.located hparse))
  | withSpan p =>
    rintro c _ c' _ ⟨rfl, -⟩ ⟨rfl, -⟩
    rfl
  | _ => trivial

variable {I} [Primitive π] {c : C}

/-- A run goes along with itself, so that its outcome is ahead of where it began. -/
theorem Parser.eval_tandem_self (env : Environment π ρ) (fuel : Nat) (ctx : Context π ρ)
    (p : Parser π ρ α) (hc : I.Has c) :
    Tandem (Session.Lockstep I.pairing) (Outcome.Lockstep c c) (p.eval env fuel ctx c)
      (p.eval env fuel ctx c) := by
  have hall {β : Type} (q : Parser π ρ β) : q.All I.pairing.Suits :=
    all_of_forall (fun q => I.suits_pairing q) q
  exact eval_tandem ⟨fun _ => hall _, fun _ => hall _⟩ fuel rfl (fun _ _ _ _ => hall _) (hall p)
    ⟨rfl, hc⟩

end Identity

/-! ## What rules remember -/

namespace Session

variable {π : Type → Type} {C T ρ : Type} [Cursor C T] [Primitive π] [Primitive.Runs π C]
  {I : Inputs C} {s t : Session C ρ}

/-- The states that any runs lead to, whether they come to an outcome or stop, and any forgetting in
between. -/
inductive Reached (I : Inputs C) : Session C ρ → Prop where
  /-- At first no rule knows anything. -/
  | start {s : Session C ρ} (h : s.memos = {}) : Reached I s
  | run {s : Session C ρ} {α : Type} (p : Parser π ρ α) (env : Environment π ρ) (fuel : Nat)
    (ctx : Context π ρ) {c : C} (h : Reached I s) (hc : I.Has c) :
    Reached I (p.run env fuel ctx c s).2
  | parse {s : Session C ρ} (g : GrammarParser) (env : Environment π ρ) (fuel : Nat) {c : C}
    (h : Reached I s) (hc : I.Has c) : Reached I (g.parse env fuel c s).2.2
  | clearMemo {s : Session C ρ} (g : GrammarParser) (h : Reached I s) : Reached I (g.clearMemo s)

variable [Cursor.Lawful C]

omit [Primitive π] [Primitive.Runs π C] in
/-- Forgetting leaves what is remembered in lockstep with itself. -/
theorem Lockstep.of_lookup (h : s.Lockstep I.pairing s)
    (hst : ∀ {r key e}, t.lookup r key = some e → s.lookup r key = some e) :
    t.Lockstep I.pairing t where
  lookup := by
    rintro c _ ⟨rfl, hc⟩ r
    rcases ht : t.lookup r (Cursor.key c) with _ | e
    · exact .unknown
    · have hentry := h.lookup ⟨rfl, hc⟩ r
      rwa [hst ht] at hentry
  input_iff := by
    rintro c _ ⟨rfl, -⟩ r
    exact Iff.rfl

/-- What rules remember has its places in the inputs. -/
theorem Reached.lockstep [Primitive.Located π C] (h : Reached (π := π) I s) :
    s.Lockstep I.pairing s := by
  induction h with
  | @start s h =>
    have hunseen (i : InputId) (r : RuleId) : (s.memo r).input ≠ some i := by
      rw [memo, h]
      exact Option.some_ne_none i |>.symm
    exact .of_unseen (fun _ => hunseen _) fun _ => hunseen _
  | run p env fuel ctx _ hc ih => exact (p.eval_tandem_self env fuel ctx hc _ _ ih).2
  | parse g env fuel _ hc ih =>
    rw [GrammarParser.parse_eq]
    exact (Parser.eval_tandem_self env fuel {} (.rule g.start) hc _ _
      (ih.of_lookup GrammarParser.lookup_of_enter)).2
  | clearMemo g _ ih => exact ih.of_lookup GrammarParser.lookup_of_clearMemo

/-- What a parser comes to has its place in the input, whatever was parsed before. -/
theorem Reached.located [Primitive.Located π C] {α : Type} {p : Parser π ρ α}
    {env : Environment π ρ} {n : ℕ} {ctx : Context π ρ} {c : C} {o : Outcome C α}
    (hs : Reached (π := π) I s) (hc : I.Has c) (h : p.run env n ctx c s = (.ok o, t)) :
    o.Located c := by
  have hends := (p.eval_tandem_self env n ctx hc s s hs.lockstep).1
  rw [show (p.eval env n ctx c).run s = (.ok o, t) from h] at hends
  cases hends with
  | value hlockstep => exact Outcome.lockstep_self.mp hlockstep

end Session

/-! ## What is consumed -/

variable {π : Type → Type} {C T ρ α : Type} [Cursor C T] [Primitive π] [Primitive.Runs π C]
  [Newline T] [Cursor.Lawful C] [Cursor.Listed C] [Primitive.Located π C] {I : Inputs C}
  {s : Session C ρ} {c : C}

/-- Whatever was parsed before, a success leaves the cursor that passing some of the tokens one by
one leads to: of the same input, at the location to which these tokens move. And a report that is no
success names the location of such a cursor. -/
theorem Session.Reached.run_consumes (hs : Session.Reached (π := π) I s) (hc : I.Has c)
    (p : Parser π ρ α) (env : Environment π ρ) (fuel : Nat) (ctx : Context π ρ) :
    (∀ a d, (p.run env fuel ctx c s).1 = .ok (.success a d) →
      ∃ n ≤ (Listed.tokens c).length, d = Cursor.next^[n] c ∧
        Cursor.input d = Cursor.input c ∧ Listed.tokens d = (Listed.tokens c).drop n ∧
        Cursor.location d = (Cursor.location c).advanceBy ((Listed.tokens c).take n)) ∧
    ∀ r, (p.run env fuel ctx c s).1 = .ok (.noSuccess r) →
      ∃ n ≤ (Listed.tokens c).length, r.location = Cursor.location (Cursor.next^[n] c) := by
  have hends := (p.eval_tandem_self env fuel ctx hc s s hs.lockstep).1
  have hlocated {o : Outcome C α} (ho : (p.run env fuel ctx c s).1 = .ok o) : o.Located c := by
    have hrun : ((p.eval env fuel ctx c).run s).1 = .ok o := ho
    rw [hrun] at hends
    cases hends with
    | value h => exact Outcome.lockstep_self.mp h
  rw [Listed.length_tokens]
  constructor
  · intro a d hrun
    have hafter : After c d := hlocated hrun
    obtain ⟨n, hn, rfl⟩ := hafter.exists_le_remaining
    exact ⟨n, hn, rfl, hafter.input_eq, tokens_iterate_next c n, location_iterate_next c n⟩
  · intro r hrun
    obtain ⟨d, hafter, hl⟩ : ∃ d, After c d ∧ r.location = Cursor.location d := hlocated hrun
    obtain ⟨n, hn, rfl⟩ := hafter.exists_le_remaining
    exact ⟨n, hn, hl⟩

/-! ### Two lines -/

namespace TwoLines

/-- Every input is a character of two bytes, the end of a line and one more character. -/
def inputs : Inputs TextReader :=
  ⟨fun i => .ofChars ['é', '\n', 'x'] (.lineColumn {}) i, fun _ => rfl⟩

def everything : Parser TextPrimitive Nat (List Char) :=
  .many .anyChar

end TwoLines

open TwoLines GrammarParser in
/-- Behind a run that stopped: one that succeeds at the end of the input, and one that fails
there. -/
theorem Session.Reached.run_consumes_twoLines :
    (∃ n ≤ 3, (⟨['é', '\n', 'x'], [], 4, .lineColumn ⟨2, 1⟩, ⟨0⟩⟩ : TextReader) =
      Cursor.next^[n] (inputs.start ⟨0⟩)) ∧
    ∃ n ≤ 3, .lineColumn ⟨2, 1⟩ = Cursor.location (Cursor.next^[n] (inputs.start ⟨0⟩)) := by
  have hstart : inputs.Has (inputs.start ⟨0⟩) := inputs.has_start ⟨0⟩
  have hreached : Reached (π := TextPrimitive) inputs
      (everything.run Brackets.environment 1 {} (inputs.start ⟨0⟩) {}).2 :=
    .run everything Brackets.environment 1 {} (.start rfl) hstart
  obtain ⟨hsuccess, -⟩ := Reached.run_consumes hreached hstart everything Brackets.environment 6 {}
  obtain ⟨-, hreport⟩ := Reached.run_consumes hreached hstart
    (.and everything (.char 'z')) Brackets.environment 6 {}
  obtain ⟨n, hn, hd, -⟩ := hsuccess ['é', '\n', 'x']
    ⟨['é', '\n', 'x'], [], 4, .lineColumn ⟨2, 1⟩, ⟨0⟩⟩ rfl
  obtain ⟨m, hm, hl⟩ := hreport (.failure "'z'" (.lineColumn ⟨2, 1⟩)) rfl
  exact ⟨⟨n, hn, hd⟩, m, hm, hl⟩

end Parsing
