import Parsing.Proofs.Cursor.Stretches
import Parsing.Proofs.Grammar.Consumption
import Parsing.Proofs.Parser.Readings

/-!
# Spans are exact

The span of a value is that between the cursor where the parser ran and the one that it left, and a
parser only moves forward. So the span has the tokens that were passed, and is empty just if there
were none (`Span.Covers`). What a sequencing reads lies between its ends (`Parser.IsReadIn.after`),
and the spans of parsers that run one after another follow each other without a gap (`Series.tile`,
`InTurn.tile`). All of that is so whatever was parsed before (`Session.Reached.spans_exact`).
-/

namespace Parsing

open Recognizer Cursor

/-! ## One after another -/

section Tile

variable {σ C T α : Type} [Cursor C T] {k l : C × σ} {vs : List (α × Span)}

/-- Whether a recognizer gives with a value the span that it was read from. -/
def Recognizer.TellsSpan (p : Recognizer (Effect σ) C (α × Span)) : Prop :=
  ∀ c s v d t, (p c).run s = (.ok (.success v d), t) → v.2 = Span.between c d

/-- A parser with its span tells what it was read from. -/
theorem Parser.tellsSpan_withSpan {π : Type → Type} {ρ : Type} [Primitive π] [Primitive.Runs π C]
    (p : Parser π ρ α) (env : Environment π ρ) (n : ℕ) (ctx : Context π ρ) :
    ((withSpan p).eval (C := C) env n ctx).TellsSpan := by
  intro c s v d t hrun
  obtain ⟨n, rfl⟩ := exists_eq_succ_of_run hrun
  exact (run_withSpan_success_iff.mp hrun).2

/-- The span between two places goes in front of those that begin at the second place. -/
theorem Span.Tile.between {c d : C} {spans : List Span} {k : Location × ℕ}
    (h : Span.Tile (place d) spans k) : Span.Tile (place c) (Span.between c d :: spans) k :=
  .cons (Span.between c d) h

/-- The spans of the rounds of a loop. -/
theorem Recognizer.Series.tile {goesOn : C → C → Prop}
    {p : Recognizer (Effect σ) C (α × Span)} (h : Series goesOn p k vs l) (hp : p.TellsSpan) :
    Span.Tile (place k.1) (vs.map Prod.snd) (place l.1) := by
  induction h with
  | nil k => exact .nil _
  | cons hrun hd h ih =>
    rw [List.map_cons, hp _ _ _ _ _ hrun]
    exact ih.between

/-- The spans of parts that are read in turn. -/
theorem Recognizer.InTurn.tile {ps : List (Recognizer (Effect σ) C (α × Span))}
    (h : InTurn ps k vs l) (hps : ∀ p ∈ ps, p.TellsSpan) :
    Span.Tile (place k.1) (vs.map Prod.snd) (place l.1) := by
  induction h with
  | nil k => exact .nil _
  | cons hrun h ih =>
    obtain ⟨hp, hrest⟩ := List.forall_mem_cons.mp hps
    rw [List.map_cons, hp _ _ _ _ _ hrun]
    exact (ih hrest).between

end Tile

/-! ## Where runs lead to -/

section ReachedAt

variable {π : Type → Type} {C T ρ α β : Type} [Cursor C T] [Primitive π] [Primitive.Runs π C]
  {I : Inputs C} {env : Environment π ρ} {ctx : Context π ρ} {n : ℕ} {c d e e' : C}
  {s t : Session C ρ} {k l : C × Session C ρ}

/-- A cursor of the opened inputs, with a session that runs lead to. -/
structure Session.ReachedAt (π : Type → Type) [Primitive π] [Primitive.Runs π C] (I : Inputs C)
    (k : C × Session C ρ) : Prop where
  has : I.Has k.1
  reached : Session.Reached (π := π) I k.2

variable [Cursor.Lawful C] [Primitive.Located π C]

namespace Session

/-- A success leads ahead, to where runs lead to. -/
theorem ReachedAt.of_run (h : ReachedAt π I (c, s)) {p : Parser π ρ α} {a : α}
    (hrun : p.run env n ctx c s = (.ok (.success a d), t)) :
    After c d ∧ ReachedAt π I (d, t) := by
  have hreached := Reached.run p env n ctx h.reached h.has
  have hafter : After c d := h.reached.located h.has hrun
  rw [hrun] at hreached
  exact ⟨hafter, h.has.after hafter, hreached⟩

/-- Parts that are read in turn lead ahead, to where runs lead to. -/
theorem ReachedAt.of_inTurn {ps : List (Recognizer (Effect (Session C ρ)) C α)} {as : List α}
    (h : InTurn ps k as l) (hps : ∀ q ∈ ps, ∃ p : Parser π ρ α, q = p.eval env n ctx)
    (hk : ReachedAt π I k) : After k.1 l.1 ∧ ReachedAt π I l := by
  induction h with
  | nil k => exact ⟨.refl _, hk⟩
  | cons hp h ih =>
    obtain ⟨⟨p, rfl⟩, hrest⟩ := List.forall_mem_cons.mp hps
    obtain ⟨hafter, hd⟩ := hk.of_run hp
    exact (ih hrest hd).imp_left hafter.trans

end Session

omit [Cursor.Lawful C] [Primitive.Located π C] in
/-- What is read in a sequencing was read by a run of its own. -/
theorem Parser.IsReadIn.exists_run {p : Parser π ρ α} {q : Parser π ρ β} {b : β}
    (h : IsReadIn env ctx q b e e' n p c s) :
    ∃ m u v, q.run env m ctx e u = (.ok (.success b e'), v) := by
  induction h with
  | self h => exact ⟨_, _, _, h⟩
  | map _ _ ih | withSpan _ ih | zip_left _ _ _ ih | zip_right _ _ _ ih | sequence _ _ _ _ ih =>
    exact ih

/-- What a sequencing reads lies between where it ran and where it ended. -/
theorem Parser.IsReadIn.after {p : Parser π ρ α} {q : Parser π ρ β} {b : β} {a : α}
    (h : IsReadIn env ctx q b e e' n p c s) (hk : Session.ReachedAt π I (c, s))
    (hrun : p.run env n ctx c s = (.ok (.success a d), t)) :
    After c e ∧ After e e' ∧ After e' d := by
  induction h generalizing d t with
  | self h =>
    cases h.symm.trans hrun
    exact ⟨.refl _, (hk.of_run h).1, .refl _⟩
  | map f h ih =>
    obtain ⟨a, hp, -⟩ := run_map_success_iff.mp hrun
    exact ih hk hp
  | withSpan h ih => exact ih hk (Parser.run_withSpan_success_iff.mp hrun).1
  | zip_left f p' h ih =>
    obtain ⟨a, m, u, b, hp, hp', -⟩ := Parser.run_zip_success_iff.mp hrun
    obtain ⟨he, he', hend⟩ := ih hk hp
    obtain ⟨hm, -⟩ := (hk.of_run hp).2.of_run hp'
    exact ⟨he, he', hend.trans hm⟩
  | zip_right f hp h ih =>
    obtain ⟨a, m, u, b, hleft, hp', -⟩ := Parser.run_zip_success_iff.mp hrun
    cases hp.symm.trans hleft
    obtain ⟨hm, hreached⟩ := hk.of_run hp
    obtain ⟨he, he', hend⟩ := ih hreached hp'
    exact ⟨hm.trans he, he', hend⟩
  | @sequence β k n ps i c m s u as hbefore h ih =>
    have hps : ∀ q ∈ List.ofFn fun j => (ps j).eval (C := C) env n ctx,
        ∃ p : Parser π ρ β, q = p.eval env n ctx := by
      intro q hq
      obtain ⟨j, rfl⟩ := List.mem_ofFn.mp hq
      exact ⟨ps j, rfl⟩
    obtain ⟨b, m', u', d', t', -, hbefore', hp, hbehind⟩ :=
      (Parser.run_sequence_success_iff.mp hrun).split (i := i) (by simp)
    -- the parts in front of this one have gone the same way in both runs
    obtain ⟨-, heq⟩ := hbefore.unique hbefore'
    cases heq
    rw [List.getElem_ofFn] at hp
    obtain ⟨hm, hreached⟩ := hk.of_inTurn hbefore fun q hq => hps q (List.mem_of_mem_take hq)
    obtain ⟨he, he', hend⟩ := ih hreached hp
    obtain ⟨hrest, -⟩ := (hreached.of_run hp).2.of_inTurn hbehind fun q hq =>
      hps q (List.mem_of_mem_drop hq)
    exact ⟨hm.trans he, he', hend.trans hrest⟩

end ReachedAt

/-! ## What spans tell -/

section Covers

variable {C T : Type} [Cursor C T] [Newline T] [Cursor.Lawful C] [Cursor.Listed C]
  {I : Inputs C} {c d : C}

/-- Whether a span is exactly what was consumed from one cursor to another. -/
structure Span.Covers (I : Inputs C) (span : Span) (c d : C) : Prop where
  ordered : span.startPosition ≤ span.stopPosition
  /-- At its ends are the two cursors. -/
  ends : (span.start, span.startPosition) = place c ∧ (span.stop, span.stopPosition) = place d
  /-- Its tokens stand in front of those that are left. -/
  tokens_eq : Listed.tokens c = span.tokens (I.start (Cursor.input c)) ++ Listed.tokens d
  /-- Just these were passed. -/
  eq_iterate : d = Cursor.next^[(span.tokens (I.start (Cursor.input c))).length] c
  isEmpty_iff : span.isEmpty = true ↔ d = c
  /-- Its locations are those of its positions in the input. -/
  location_eq {e : C} (he : I.Has e) (hinput : Cursor.input e = Cursor.input c) :
    (Cursor.position e = span.startPosition → Cursor.location e = span.start) ∧
      (Cursor.position e = span.stopPosition → Cursor.location e = span.stop)

/-- The span between two places covers what was consumed between them. -/
theorem Span.covers_between (hc : I.Has c) (hd : After c d) : (Span.between c d).Covers I c d := by
  have htokens := Span.tokens_eq_append_of_between hc hd
  have hlocation {e e' : C} (he : I.Has e) (he' : I.Has e')
      (hinput : Cursor.input e = Cursor.input e') (hp : Cursor.position e = Cursor.position e') :
      Cursor.location e = Cursor.location e' :=
    congrArg Cursor.location (Inputs.eq_of_key_eq he he' (Prod.ext hinput hp))
  refine ⟨hd.position_le, ⟨rfl, rfl⟩, htokens, ?_, ?_, fun he hinput => ⟨?_, ?_⟩⟩
  · obtain ⟨n, hn, rfl⟩ := hd.exists_le_remaining
    have hlength := congrArg List.length htokens
    rw [List.length_append, Listed.length_tokens, Listed.length_tokens, remaining_iterate_next]
      at hlength
    congr
    omega
  · rw [Span.isEmpty, decide_eq_true_eq]
    exact ⟨fun h => hd.eq_of_position_eq h.symm, fun h => congrArg Cursor.position h.symm⟩
  · exact hlocation he hc hinput
  · exact hlocation he (hc.after hd) (hinput.trans hd.input_eq.symm)

end Covers

variable {π : Type → Type} {C T ρ : Type} [Cursor C T] [Primitive π] [Primitive.Runs π C]
  [Newline T] [Cursor.Lawful C] [Cursor.Listed C] [Primitive.Located π C] {I : Inputs C}
  {s : Session C ρ} {c : C}

/-- A span that is read is exact, and lies between where the sequencing ran and where it ended. -/
theorem Parser.IsReadIn.covers {α β : Type} {env : Environment π ρ} {ctx : Context π ρ} {n : ℕ}
    {p : Parser π ρ α} {q : Parser π ρ β} {a : α} {b : β} {inner : Span} {d e e' : C}
    {t : Session C ρ} (h : (Parser.withSpan q).IsReadIn env ctx (b, inner) e e' n p c s)
    (hk : Session.ReachedAt π I (c, s)) (hrun : p.run env n ctx c s = (.ok (.success a d), t)) :
    inner.Covers I e e' ∧ inner.Within (Span.between c d) := by
  obtain ⟨he, hread, hend⟩ := h.after hk hrun
  obtain ⟨m, u, v, hq⟩ := h.exists_run
  obtain ⟨m, rfl⟩ := Parser.exists_eq_succ_of_run hq
  obtain ⟨-, rfl⟩ := Parser.run_withSpan_success_iff.mp hq
  exact ⟨Span.covers_between (hk.has.after he) hread, he.position_le, hend.position_le⟩

/-- Whatever was parsed before,
* with a span a parser succeeds where it does without, and the span is what it consumed;
* in a sequencing with a span, every part with a span was read, and its span lies within that of the
  sequencing. What a sequencing comes to is made of what is read so;
* the spans of repetitions and sequences follow each other without a gap, from the cursor where
  these ran to the one that they left. -/
theorem Session.Reached.spans_exact (hs : Session.Reached (π := π) I s) (hc : I.Has c)
    (env : Environment π ρ) (fuel : ℕ) (ctx : Context π ρ) :
    (∀ (α : Type) (p : Parser π ρ α) a span d t,
      ((Parser.withSpan p).run env (fuel + 1) ctx c s = (.ok (.success (a, span) d), t) ↔
        p.run env fuel ctx c s = (.ok (.success a d), t) ∧ span = Span.between c d) ∧
      ((Parser.withSpan p).run env (fuel + 1) ctx c s = (.ok (.success (a, span) d), t) →
        span.Covers I c d ∧
        ∀ (β : Type) (q : Parser π ρ β),
          ((Parser.withSpan q).IsPartOf p → ∃ b inner e e',
            (Parser.withSpan q).IsReadIn env ctx (b, inner) e e' fuel p c s) ∧
          ∀ b inner e e', (Parser.withSpan q).IsReadIn env ctx (b, inner) e e' fuel p c s →
            inner.Covers I e e' ∧ inner.Within span)) ∧
    (∀ (α β γ : Type) (f : α → β → γ) (p : Parser π ρ α) (q : Parser π ρ β) v d t,
      (Parser.zip f p q).run env fuel ctx c s = (.ok (.success v d), t) →
        ∃ a e b, v = f a b ∧ p.IsReadIn env ctx a c e fuel (.zip f p q) c s ∧
          q.IsReadIn env ctx b e d fuel (.zip f p q) c s) ∧
    (∀ (α : Type) (k : ℕ) (ps : Fin k → Parser π ρ α) as d t,
      (Parser.sequence ps).run env fuel ctx c s = (.ok (.success as d), t) →
        as.length = k ∧ ∀ i : Fin k, ∃ a e e', as[i]? = some a ∧
          (ps i).IsReadIn env ctx a e e' fuel (.sequence ps) c s) ∧
    ∀ (α : Type) (vs : List (α × Span)) d t,
      (∀ p : Parser π ρ α,
        (Parser.many (.withSpan p)).run env fuel ctx c s = (.ok (.success vs d), t) →
          Span.Tile (place c) (vs.map Prod.snd) (place d)) ∧
      (∀ p : Parser π ρ α,
        (Parser.manyOne (.withSpan p)).run env fuel ctx c s = (.ok (.success vs d), t) →
          Span.Tile (place c) (vs.map Prod.snd) (place d)) ∧
      ∀ (k : ℕ) (ps : Fin k → Parser π ρ α),
        (Parser.sequence fun i => .withSpan (ps i)).run env fuel ctx c s =
          (.ok (.success vs d), t) → Span.Tile (place c) (vs.map Prod.snd) (place d) := by
  have hk : Session.ReachedAt π I (c, s) := ⟨hc, hs⟩
  refine ⟨fun α p a span d t => ⟨Parser.run_withSpan_success_iff, fun hrun => ?_⟩,
    fun _ _ _ _ _ _ _ _ _ => Parser.exists_isReadIn_of_zip,
    fun _ _ _ _ _ _ => Parser.exists_isReadIn_of_sequence, fun α vs d t => ⟨fun p hrun => ?_,
      fun p hrun => ?_, fun k ps hrun => ?_⟩⟩
  · obtain ⟨hp, rfl⟩ := Parser.run_withSpan_success_iff.mp hrun
    refine ⟨Span.covers_between hc (hk.of_run hp).1, fun β q => ⟨fun hpart => ?_, ?_⟩⟩
    · obtain ⟨⟨b, inner⟩, e, e', hread⟩ := hpart.exists_isReadIn hp
      exact ⟨b, inner, e, e', hread⟩
    · exact fun b inner e e' hread => hread.covers hk hp
  · -- in the loops and in the sequence, each element was read by a run that told its span
    obtain ⟨n, u, happlies⟩ := Parser.applies_of_run_many hrun
    exact happlies.tile (p.tellsSpan_withSpan env n ctx)
  · obtain ⟨n, u, happlies⟩ := Parser.applies_of_run_manyOne hrun
    exact happlies.tile (p.tellsSpan_withSpan env n ctx)
  · obtain ⟨n, rfl⟩ := Parser.exists_eq_succ_of_run hrun
    refine (Parser.run_sequence_success_iff.mp hrun).tile fun q hq => ?_
    obtain ⟨i, rfl⟩ := List.mem_ofFn.mp hq
    exact (ps i).tellsSpan_withSpan env n ctx

namespace TwoLines

/-- A character and those behind it, all with their spans. -/
def spanned : Parser TextPrimitive Nat ((Char × Span) × List (Char × Span)) :=
  .and (.withSpan (.char 'é')) (.many (.withSpan .anyChar))

end TwoLines

open TwoLines GrammarParser in
/-- The whole input, its first character, and all characters one by one. -/
theorem Session.Reached.spans_exact_twoLines :
    Span.Covers inputs ⟨.lineColumn ⟨1, 0⟩, .lineColumn ⟨2, 1⟩, 0, 4⟩ (inputs.start ⟨0⟩)
      ⟨['é', '\n', 'x'], [], 4, .lineColumn ⟨2, 1⟩, ⟨0⟩⟩ ∧
    Span.Within ⟨.lineColumn ⟨1, 0⟩, .lineColumn ⟨1, 1⟩, 0, 2⟩
      ⟨.lineColumn ⟨1, 0⟩, .lineColumn ⟨2, 1⟩, 0, 4⟩ ∧
    Span.Tile (.lineColumn ⟨1, 0⟩, 0)
      [⟨.lineColumn ⟨1, 0⟩, .lineColumn ⟨1, 1⟩, 0, 2⟩,
        ⟨.lineColumn ⟨1, 1⟩, .lineColumn ⟨2, 0⟩, 2, 3⟩,
        ⟨.lineColumn ⟨2, 0⟩, .lineColumn ⟨2, 1⟩, 3, 4⟩] (.lineColumn ⟨2, 1⟩, 4) := by
  have hstart : inputs.Has (inputs.start ⟨0⟩) := inputs.has_start ⟨0⟩
  have hreached : Reached (π := TextPrimitive) inputs
      (everything.run Brackets.environment 1 {} (inputs.start ⟨0⟩) {}).2 :=
    .run everything Brackets.environment 1 {} (.start rfl) hstart
  obtain ⟨hspan, -, -, htile⟩ := Reached.spans_exact hreached hstart Brackets.environment 7 {}
  obtain ⟨hcovers, hinner⟩ := (hspan _ spanned _ _ _ _).2 rfl
  exact ⟨hcovers, ((hinner Char (.char 'é')).2 'é' _ _ _ (.zip_left _ _ (.self rfl))).2,
    (htile Char _ _ _).1 .anyChar rfl⟩

end Parsing
