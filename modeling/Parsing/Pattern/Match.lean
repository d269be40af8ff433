import Parsing.Pattern.Automaton

/-!
# Matching

A match is found by following all ways through an automaton at once, in the order of preference, one
character after another. Of two ways that reach a state at the same place only the preferred one is
followed, so that the number of ways is bounded by the number of states. When a way is complete,
those less preferred are given up. As long as no way is complete, another one starts at every place
where a match may start.
-/

namespace Parsing.Pattern

/-- A way through an automaton: the state that it has reached, and the place where it started. -/
structure Way where
  state : Nat
  start : Nat

/-- What the ways at one place have come to. -/
structure Frontier where
  /-- For each state the number of the place behind the last one at which it was reached. -/
  reached : Array Nat
  /-- The ways that wait for a character, the least preferred first. -/
  waiting : List Way := []
  /-- Where the complete way started, if there is one. -/
  complete : Option Nat := none

namespace Automaton

/-- Follows ways at one place until each needs a character, up to the first that is complete. -/
def settle (m : Automaton) (before after : Option Char) (place : Nat) :
    (fuel : Nat) → (ways : List Way) → Frontier → Frontier
  | 0, _, f | _, [], f => f
  | fuel + 1, ⟨state, start⟩ :: ways, f =>
    if f.reached[state]? == some (place + 1) then m.settle before after place fuel ways f
    else
      let f := { f with reached := f.reached.setIfInBounds state (place + 1) }
      match m.states[state]? with
      | none => m.settle before after place fuel ways f
      | some .done => { f with complete := some start }
      | some (.read _ _) =>
        m.settle before after place fuel ways { f with waiting := ⟨state, start⟩ :: f.waiting }
      | some (.check a next) =>
        let ways := if a.holds before after then ⟨next, start⟩ :: ways else ways
        m.settle before after place fuel ways f
      | some (.split first second) =>
        m.settle before after place fuel (⟨first, start⟩ :: ⟨second, start⟩ :: ways) f

/-- The ways that go on behind a character, the most preferred first. -/
def read (m : Automaton) (c : Char) (waiting : List Way) : List Way :=
  waiting.foldl
    (fun ways (w : Way) =>
      match m.states[w.state]? with
      | some (.read a next) => if a.contains c then ⟨next, w.start⟩ :: ways else ways
      | _ => ways)
    []

/-- Follows ways through the rest of a text, and gives the places between which the preferred match
is; `best` is the preferred one among those that were complete before. -/
def search (m : Automaton) :
    (before : Option Char) → (text : List Char) → (place : Nat) → (ways : List Way) →
      (reached : Array Nat) → (best : Option (Nat × Nat)) → Option (Nat × Nat)
  | before, text, place, ways, reached, best =>
    let starts := best.isNone && (place = 0 || !m.anchored)
    let ways := if starts then ways ++ [⟨m.start, place⟩] else ways
    let fuel := ways.length + 2 * m.states.size + 1
    let f := m.settle before text.head? place fuel ways { reached }
    let best := match f.complete with
      | some start => some (start, place)
      | none => best
    match text with
    | [] => best
    | c :: text =>
      let ways := m.read c f.waiting
      if ways.isEmpty && (best.isSome || m.anchored) then best
      else m.search (some c) text (place + 1) ways f.reached best

/-- The places before and behind the first match in a text, as numbers of characters. -/
def find (m : Automaton) (text : List Char) : Option (Nat × Nat) :=
  m.search none text 0 [] (Array.replicate m.states.size 0) none

end Automaton

end Parsing.Pattern
