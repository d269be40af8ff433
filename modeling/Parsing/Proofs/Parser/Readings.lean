import Parsing.Proofs.Parser.Dialogue
import Parsing.Proofs.Recognizer.Repetition

/-!
# What is read where

A sequencing runs all of its parts, each where the one before it ended. When it succeeds, so did
all of them: `Parser.IsReadIn` says of a part with which value, from where and to where. The parts
may be sequencings again (`Parser.IsPartOf`).

Runs are those of the recognizers of the same name, so that what is known of recognizers carries
over (`Parser.run_zip_success_iff` and the others).
-/

namespace Parsing

open Cursor

namespace Recognizer

variable {σ C T α : Type} [Cursor C T] {c d : C} {s t : σ} {p : Recognizer (Effect σ) C α}

/-- A recognizer with its span succeeds with the value of the recognizer and the stretch that was
read. -/
theorem run_withSpan_success_iff {v : α × Span} :
    (withSpan p c).run s = (.ok (.success v d), t) ↔
      (p c).run s = (.ok (.success v.1 d), t) ∧ v.2 = Span.between c d := by
  rw [withSpan, run_chain_iff]
  constructor
  · rintro (⟨a, e, u, hp, hrun⟩ | ⟨r, -, heq⟩)
    · cases hrun
      exact ⟨hp, rfl⟩
    · cases heq
  · rintro ⟨hp, hspan⟩
    obtain ⟨a, span⟩ := v
    cases hspan
    exact .inl ⟨a, d, t, hp, rfl⟩

end Recognizer

namespace Parser

variable {π : Type → Type} {C T ρ α β γ : Type} [Cursor C T] [Primitive π] [Primitive.Runs π C]
  {env : Environment π ρ} {ctx : Context π ρ} {n : ℕ} {c d : C} {s t : Session C ρ}

/-! ## Runs of sequencings and repetitions -/

/-- Only with a bound there is an outcome. -/
theorem exists_eq_succ_of_run {p : Parser π ρ α} {o : Outcome C α}
    (h : p.run env n ctx c s = (.ok o, t)) : ∃ m, n = m + 1 := by
  cases n with
  | zero => cases h
  | succ m => exact ⟨m, rfl⟩

/-- A mapped parser succeeds with the image of a value, where the parser succeeds with the value. -/
theorem run_map_success_iff {f : α → β} {p : Parser π ρ α} {b : β} :
    (map f p).run env (n + 1) ctx c s = (.ok (.success b d), t) ↔
      ∃ a, p.run env n ctx c s = (.ok (.success a d), t) ∧ b = f a :=
  Recognizer.run_map_success_iff

/-- A parser with its span succeeds with the value of the parser and the stretch that was read. -/
theorem run_withSpan_success_iff {p : Parser π ρ α} {v : α × Span} :
    (withSpan p).run env (n + 1) ctx c s = (.ok (.success v d), t) ↔
      p.run env n ctx c s = (.ok (.success v.1 d), t) ∧ v.2 = Span.between c d :=
  Recognizer.run_withSpan_success_iff

/-- Two parsers in turn succeed where the first one does, and the second one does behind it. -/
theorem run_zip_success_iff {f : α → β → γ} {p : Parser π ρ α} {q : Parser π ρ β} {v : γ} :
    (zip f p q).run env (n + 1) ctx c s = (.ok (.success v d), t) ↔
      ∃ a e u b, p.run env n ctx c s = (.ok (.success a e), u) ∧
        q.run env n ctx e u = (.ok (.success b d), t) ∧ v = f a b :=
  Recognizer.run_zip_success_iff

/-- Parsers in turn succeed where each of them does, behind the one before it. -/
theorem run_sequence_success_iff {k : ℕ} {ps : Fin k → Parser π ρ α} {as : List α} :
    (sequence ps).run env (n + 1) ctx c s = (.ok (.success as d), t) ↔
      Recognizer.InTurn (List.ofFn fun i => (ps i).eval env n ctx) (c, s) as (d, t) :=
  Recognizer.run_sequence_success_iff

/-- A repetition that succeeds has the values of rounds, each where the one before it ended. -/
theorem applies_of_run_many {p : Parser π ρ α} {as : List α}
    (h : (many p).run env n ctx c s = (.ok (.success as d), t)) :
    ∃ m u, Recognizer.Applies (p.eval env m ctx) (c, s) as (d, u) := by
  obtain ⟨m, rfl⟩ := exists_eq_succ_of_run h
  exact ⟨m, Recognizer.applies_of_run_many h⟩

/-- The elements that a parser reads one time or more were read by one run of it after another. -/
theorem applies_of_run_manyOne {p : Parser π ρ α} {as : List α}
    (h : (manyOne p).run env n ctx c s = (.ok (.success as d), t)) :
    ∃ m u, Recognizer.Applies (p.eval env m ctx) (c, s) as (d, u) := by
  obtain ⟨m, rfl⟩ := exists_eq_succ_of_run h
  exact ⟨m, Recognizer.applies_of_run_manyOne h⟩

/-! ## Parts -/

/-- Whether an expression is one of those that another one runs in turn, or a part of these. -/
inductive IsPartOf {β : Type} (q : Parser π ρ β) : {α : Type} → Parser π ρ α → Prop where
  | self : IsPartOf q q
  | map {α γ : Type} (f : α → γ) {p : Parser π ρ α} (h : IsPartOf q p) : IsPartOf q (.map f p)
  | withSpan {α : Type} {p : Parser π ρ α} (h : IsPartOf q p) : IsPartOf q (.withSpan p)
  | zip_left {α α' γ : Type} (f : α → α' → γ) {p : Parser π ρ α} (p' : Parser π ρ α')
    (h : IsPartOf q p) : IsPartOf q (.zip f p p')
  | zip_right {α α' γ : Type} (f : α → α' → γ) (p : Parser π ρ α) {p' : Parser π ρ α'}
    (h : IsPartOf q p') : IsPartOf q (.zip f p p')
  | sequence {α : Type} {k : ℕ} (ps : Fin k → Parser π ρ α) (i : Fin k) (h : IsPartOf q (ps i)) :
    IsPartOf q (.sequence ps)

/-- Whether in the run of an expression, with a bound and from a cursor and a session, a part of it
succeeds with a value, from one cursor to another. -/
inductive IsReadIn (env : Environment π ρ) (ctx : Context π ρ) {β : Type} (q : Parser π ρ β) (b : β)
    (d e : C) : {α : Type} → ℕ → Parser π ρ α → C → Session C ρ → Prop where
  | self {n : ℕ} {s t : Session C ρ} (h : q.run env n ctx d s = (.ok (.success b e), t)) :
    IsReadIn env ctx q b d e n q d s
  | map {α γ : Type} (f : α → γ) {n : ℕ} {p : Parser π ρ α} {c : C} {s : Session C ρ}
    (h : IsReadIn env ctx q b d e n p c s) : IsReadIn env ctx q b d e (n + 1) (.map f p) c s
  | withSpan {α : Type} {n : ℕ} {p : Parser π ρ α} {c : C} {s : Session C ρ}
    (h : IsReadIn env ctx q b d e n p c s) : IsReadIn env ctx q b d e (n + 1) (.withSpan p) c s
  | zip_left {α α' γ : Type} (f : α → α' → γ) {n : ℕ} {p : Parser π ρ α} (p' : Parser π ρ α')
    {c : C} {s : Session C ρ} (h : IsReadIn env ctx q b d e n p c s) :
    IsReadIn env ctx q b d e (n + 1) (.zip f p p') c s
  | zip_right {α α' γ : Type} (f : α → α' → γ) {n : ℕ} {p : Parser π ρ α} {p' : Parser π ρ α'}
    {c m : C} {s t : Session C ρ} {a : α} (hp : p.run env n ctx c s = (.ok (.success a m), t))
    (h : IsReadIn env ctx q b d e n p' m t) : IsReadIn env ctx q b d e (n + 1) (.zip f p p') c s
  | sequence {α : Type} {k n : ℕ} (ps : Fin k → Parser π ρ α) (i : Fin k) {c m : C}
    {s t : Session C ρ} {as : List α}
    (hbefore :
      Recognizer.InTurn ((List.ofFn fun j => (ps j).eval env n ctx).take i) (c, s) as (m, t))
    (h : IsReadIn env ctx q b d e n (ps i) m t) :
    IsReadIn env ctx q b d e (n + 1) (.sequence ps) c s

/-- What a sequencing of two comes to, from what the two read. -/
theorem exists_isReadIn_of_zip {f : α → β → γ} {p : Parser π ρ α} {q : Parser π ρ β} {v : γ}
    (h : (zip f p q).run env n ctx c s = (.ok (.success v d), t)) :
    ∃ a e b, v = f a b ∧ IsReadIn env ctx p a c e n (zip f p q) c s ∧
      IsReadIn env ctx q b e d n (zip f p q) c s := by
  obtain ⟨n, rfl⟩ := exists_eq_succ_of_run h
  obtain ⟨a, e, u, b, hp, hq, rfl⟩ := run_zip_success_iff.mp h
  exact ⟨a, e, b, rfl, .zip_left f q (.self hp), .zip_right f hp (.self hq)⟩

/-- What a sequence gives was read by its parts, one value by each. -/
theorem exists_isReadIn_of_sequence {k : ℕ} {ps : Fin k → Parser π ρ α} {as : List α}
    (h : (sequence ps).run env n ctx c s = (.ok (.success as d), t)) :
    as.length = k ∧ ∀ i : Fin k, ∃ a e e', as[i]? = some a ∧
      IsReadIn env ctx (ps i) a e e' n (sequence ps) c s := by
  obtain ⟨n, rfl⟩ := exists_eq_succ_of_run h
  rw [run_sequence_success_iff] at h
  refine ⟨h.length_eq.trans List.length_ofFn, fun i => ?_⟩
  obtain ⟨a, e, u, e', u', ha, hbefore, hrun, -⟩ := h.split (i := i) (by simp)
  rw [List.getElem_ofFn] at hrun
  exact ⟨a, e, e', ha, .sequence ps i hbefore (.self hrun)⟩

/-- In a run that succeeds every part was run, and succeeded. -/
theorem IsPartOf.exists_isReadIn {p : Parser π ρ α} {q : Parser π ρ β} (h : IsPartOf q p) {a : α}
    (hrun : p.run env n ctx c s = (.ok (.success a d), t)) :
    ∃ b e e', IsReadIn env ctx q b e e' n p c s := by
  induction h generalizing n c s d t with
  | self => exact ⟨a, c, d, .self hrun⟩
  | map f h ih =>
    obtain ⟨n, rfl⟩ := exists_eq_succ_of_run hrun
    obtain ⟨a, hp, -⟩ := run_map_success_iff.mp hrun
    obtain ⟨b, e, e', hread⟩ := ih hp
    exact ⟨b, e, e', .map f hread⟩
  | withSpan h ih =>
    obtain ⟨n, rfl⟩ := exists_eq_succ_of_run hrun
    obtain ⟨b, e, e', hread⟩ := ih (run_withSpan_success_iff.mp hrun).1
    exact ⟨b, e, e', .withSpan hread⟩
  | zip_left f p' h ih =>
    obtain ⟨n, rfl⟩ := exists_eq_succ_of_run hrun
    obtain ⟨a, m, u, b, hp, -, -⟩ := run_zip_success_iff.mp hrun
    obtain ⟨b, e, e', hread⟩ := ih hp
    exact ⟨b, e, e', .zip_left f p' hread⟩
  | zip_right f p h ih =>
    obtain ⟨n, rfl⟩ := exists_eq_succ_of_run hrun
    obtain ⟨a, m, u, b, hp, hp', -⟩ := run_zip_success_iff.mp hrun
    obtain ⟨b, e, e', hread⟩ := ih hp'
    exact ⟨b, e, e', .zip_right f hp hread⟩
  | sequence ps i h ih =>
    obtain ⟨n, rfl⟩ := exists_eq_succ_of_run hrun
    obtain ⟨a, m, u, m', u', -, hbefore, hp, -⟩ :=
      (run_sequence_success_iff.mp hrun).split (i := i) (by simp)
    rw [List.getElem_ofFn] at hp
    obtain ⟨b, e, e', hread⟩ := ih hp
    exact ⟨b, e, e', .sequence ps i hbefore hread⟩

end Parser

end Parsing
