import Parsing.Pattern.Regex

/-!
# Automata

`Regex.automaton` lists what a match of an expression may have to do next as numbered states, built
from the end to the start: each part of the expression is given the state that follows it, and
yields the state that it starts with. A part that is repeated with a count is built as often as the
count says, and a loop leads back to a state of its own.
-/

namespace Parsing.Pattern

/-- What is to be done next. -/
inductive State where
  /-- Nothing: the match is complete. -/
  | done
  /-- Read a character of a class. -/
  | read (a : CharClass) (next : Nat)
  /-- Go on if a condition holds. -/
  | check (a : Anchor) (next : Nat)
  /-- Go on with one of two states, the former if possible. -/
  | split (first second : Nat)

/-- States in order of their numbers. -/
abbrev States := Array State

namespace States

/-- Adds a state, and gives its number. -/
def add (states : States) (s : State) : Nat × States :=
  (states.size, states.push s)

/-- The state between two ways, of which the former is taken if possible, or the latter. -/
def either (inOrder : Bool) (first second : Nat) : State :=
  if inOrder then .split first second else .split second first

end States

namespace Regex

/-- A loop around a part, and the states with which the part and the loop begin. After the part
comes the loop, which goes on with the part or leaves for the next state. -/
def loop (build : Nat → States → Nat × States) (greedy : Bool) (next : Nat) (states : States) :
    Nat × Nat × States :=
  let (again, states) := states.add .done
  let (start, states) := build again states
  (start, again, states.setIfInBounds again (States.either greedy start next))

/-- Adds the states of an expression in front of the next state, and gives the one that it starts
with. -/
def build : Regex → (next : Nat) → States → Nat × States
  | .empty, next, states => (next, states)
  | .literal text, next, states =>
    text.foldr (fun c (next, states) => states.add (.read (.single c) next)) (next, states)
  | .set a, next, states => states.add (.read a next)
  | .anchor a, next, states => states.add (.check a next)
  | .group _ r, next, states => r.build next states
  | .concat r s, next, states =>
    let (next, states) := s.build next states
    r.build next states
  | .alternative r s, next, states =>
    let (second, states) := s.build next states
    let (first, states) := r.build next states
    states.add (.split first second)
  | .repeated least none greedy r, next, states =>
    let (start, again, states) := loop r.build greedy next states
    if least = 0 then
      -- A part that takes nothing may lead to the loop before anything was read, so that the loop
      -- cannot be the first state as well.
      if r.mayTakeNothing then states.add (States.either greedy start next) else (again, states)
    else Nat.repeat (fun (next, states) => r.build next states) (least - 1) (start, states)
  | .repeated least (some greatest) greedy r, next, states =>
    let optional : Nat × States → Nat × States := fun (later, states) =>
      let (start, states) := r.build later states
      states.add (States.either greedy start next)
    Nat.repeat (fun (next, states) => r.build next states) least
      (Nat.repeat optional (greatest - least) (next, states))

end Regex

/-- The states that a match goes through. -/
structure Automaton where
  states : States
  start : Nat
  /-- Whether matches are at the start of the text only. -/
  anchored : Bool

/-- The automaton of an expression. -/
def Regex.automaton (r : Regex) : Automaton :=
  let (start, states) := r.build 0 #[.done]
  ⟨states, start, r.startsAt .forward .startOfText⟩

end Parsing.Pattern
