import Parsing.Proofs.Grammar.Independence
import Parsing.Proofs.Text.Agreement

/-!
# Nothing looks behind

Wherever a run begins in a text, it does what it does at the start of the text that is left there,
if that is read by itself from the same location on. What came before cannot be seen: neither in the
value, nor in what is left, nor in a message; positions are counted from another start, that is all
(`Parser.runsTo_suffix_iff`). The two readers go in lockstep, and what was remembered of either text
in the past does not matter.

Spans tell absolute positions, so expressions are for none of them.
-/

namespace Parsing

open Recognizer Cursor

variable {ρ α : Type}

namespace TextReader

/-- What can be seen of a reader, if `shift` bytes came before it was opened. -/
def seen (shift : ℕ) (c : TextReader) : List Char × Location × ℕ :=
  (c.rest, c.location, shift + c.position)

/-- In a text and in what is left of it at a place, the same is seen after equally many steps. -/
theorem seen_iterate_next {text : List Char} {l : Location} {i j : InputId} {n : ℕ}
    {c d : TextReader}
    (hc : c = Cursor.next^[n] (ofChars text l i)) (hd : d = ofChars (text.drop n) c.location j)
    (m : ℕ) :
    seen 0 (Cursor.next^[m] c) = seen (byteLength (text.take n)) (Cursor.next^[m] d) := by
  have hrest : c.rest = d.rest := by
    rw [hd, hc]
    exact tokens_iterate_next (ofChars text l i) n
  have hlocation : Cursor.location (Cursor.next^[m] c) = Cursor.location (Cursor.next^[m] d) := by
    rw [location_iterate_next, location_iterate_next]
    exact congr (congrArg Location.advanceBy (hd ▸ rfl)) (congrArg (List.take m) hrest)
  have hposition : c.position = byteLength (text.take n) + d.position := by
    rw [hd, hc, position_iterate_next]
    exact Nat.add_comm _ _
  refine Prod.ext (tokens_iterate_eq (c := c) (d := d) hrest m) (Prod.ext hlocation ?_)
  change 0 + (Cursor.next^[m] c).position = _ + (Cursor.next^[m] d).position
  rw [position_iterate_next, position_iterate_next, hrest, hposition, Nat.zero_add, Nat.add_assoc]

end TextReader

namespace Parser

/-- An expression for no spans does the same at a place in a text and at the start of what is left
of the text there: step for step, and stopping alike, if neither text has been seen before; and
whatever was parsed before, it comes to the same values, before the same text, at the same location
and with as many bytes more behind it as there are before the place, or to the same failures and
errors. -/
theorem runsTo_suffix_iff {I : Inputs TextReader} {env : Environment TextPrimitive ρ}
    (henv : env.All NoSpan) {p : Parser TextPrimitive ρ α} (hp : p.All NoSpan)
    {ctx ctx' : Context TextPrimitive ρ} (hscope : ctx.scope.All NoSpan)
    (hbodies : ctx.scope.bodies = ctx'.scope.bodies) {text : List Char} {l : Location}
    {i j : InputId} {n : ℕ} {c d : TextReader} (hc : c = Cursor.next^[n] (.ofChars text l i))
    (hd : d = .ofChars (text.drop n) c.location j) :
    (∀ (m : ℕ) (s t : Session TextReader ρ), s.Unseen i → t.Unseen j →
      (p.run env m ctx c s).1.map (Outcome.seen (TextReader.seen 0) id) =
        (p.run env m ctx' d t).1.map
          (Outcome.seen (TextReader.seen (byteLength (text.take n))) id)) ∧
    (I.Has c → I.Has d → ∀ (g g' : GrammarParser) (s t : Session TextReader ρ),
      GrammarParser.Reachable I env g s → GrammarParser.Reachable I env g' t →
        ∀ x, (∃ o, p.RunsTo env ctx c s o ∧ o.seen (TextReader.seen 0) id = x) ↔
          ∃ o, p.RunsTo env ctx' d t o ∧
            o.seen (TextReader.seen (byteLength (text.take n))) id = x) := by
  have hview := TextReader.seen_iterate_next hc hd
  have hrest : c.rest = d.rest := congrArg Prod.fst (hview 0)
  -- the two readers have the same text ahead, and primitive parsers see no more than that
  have hsuits {β : Type} (q : Parser TextPrimitive ρ β) (hq : q.NoSpan) :
      (Pairing.along c d hrest).Suits q := by
    cases q with
    | primitive x => exact Pairing.agrees_textReader hrest x
    | withSpan q => exact hq.elim
    | _ => trivial
  have hfresh (m : ℕ) (s t : Session TextReader ρ) (hs : s.Unseen i) (ht : t.Unseen j) :
      (p.run env m ctx c s).1.map (Outcome.seen (TextReader.seen 0) id) =
        (p.run env m ctx' d t).1.map
          (Outcome.seen (TextReader.seen (byteLength (text.take n))) id) := by
    have hci : Cursor.input c = i := by
      rw [hc]
      exact After.input_eq ⟨n, rfl⟩
    have hdj : Cursor.input d = j := by
      rw [hd]
      rfl
    refine map_seen_of_ends (ends_in_context hrest (henv.imp hsuits) hbodies (hscope.imp hsuits)
      (hp.imp hsuits) (hci ▸ hs) (hdj ▸ ht) m) hview fun m => ?_
    exact congrArg (fun seen => seen.2.1) (hview m)
  refine ⟨hfresh, fun hIc hId g g' s t hs ht x => ?_⟩
  -- what was parsed before changes nothing, so both texts may be taken as never seen
  have hempty (k : InputId) : ({} : Session TextReader ρ).Unseen k :=
    fun _ => (Option.some_ne_none k).symm
  have hstart (m : ℕ) := hfresh m {} {} (hempty i) (hempty j)
  exact ⟨hs.exists_runsTo hstart ht hIc hId, ht.exists_runsTo (fun m => (hstart m).symm) hs hId hIc⟩

/-! ### The second line -/

namespace Exclamations

/-- The text without its first line, from where it starts there. -/
def secondLine : TextReader :=
  .ofChars (text.drop 2) (.lineColumn ⟨2, 0⟩) ⟨1⟩

/-- The whole text, and its second line as another input. -/
def inputs : Inputs TextReader where
  start i := if i = ⟨1⟩ then secondLine else .ofChars text (.lineColumn {}) i
  input_start i := by
    split
    · rename_i hi
      rw [hi]
      rfl
    · rfl

end Exclamations

open Exclamations in
/-- The rule counts at the start of the text first, and remembers what it came to. Then it counts at
the start of the second line, and by itself what is left there. -/
theorem runsTo_suffix_iff_secondLine :
    ∃ o, (skip counting (literal "!")).RunsTo rules {} secondLine {} o ∧
      o.seen (TextReader.seen (byteLength (text.take 2))) id =
        .ok (0, ['x'], .lineColumn ⟨2, 1⟩, 4) := by
  have hrules : (rules (π := TextPrimitive)).All NoSpan := all_rules ⟨trivial, trivial, trivial⟩
  have hp : (skip counting (literal "!") : Parser TextPrimitive Nat Nat).All NoSpan :=
    ⟨trivial, trivial, trivial⟩
  have hfirst : (counting : Parser TextPrimitive Nat Nat).run rules 8 {} (inputs.start ⟨0⟩) {} =
      (.ok (.success 2 ⟨text, ['!', 'x'], 3, .lineColumn ⟨2, 0⟩, ⟨0⟩⟩), _) := rfl
  have hstart :
      GrammarParser.Reachable inputs (rules (π := TextPrimitive)) ⟨⟨⟨0⟩, "count"⟩, [], none⟩
        {} := .start rfl
  have hsecond : inputs.Has secondLine := inputs.has_start ⟨1⟩
  have hscope : ({} : Context TextPrimitive Nat).scope.All NoSpan := Scope.all_nil
  have hbodies : ({} : Context TextPrimitive Nat).scope.bodies =
      ({} : Context TextPrimitive Nat).scope.bodies := rfl
  obtain ⟨-, hany⟩ := runsTo_suffix_iff hrules hp hscope hbodies
    (c := Cursor.next^[2] (inputs.start ⟨0⟩)) (d := secondLine) rfl rfl
  exact (hany ⟨2, rfl⟩ hsecond _ _ _ {} (hstart.run (inputs.has_start ⟨0⟩) hfirst) hstart _).mp
    ⟨_, .of_run (n := 8) rfl, rfl⟩

end Parser

end Parsing
