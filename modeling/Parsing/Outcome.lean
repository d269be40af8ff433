import Parsing.Location

/-!
# Outcomes of a parse

A parser that returns either succeeds, with a value and the cursor behind what it consumed, or
reports why it did not. A report is a *failure* when the input merely did not match, so that another
alternative may be tried, and an *error* when trying something else would be wrong.
-/

namespace Parsing

/-- How much a parse that did not succeed rules out. -/
inductive Severity where
  /-- The input did not match here; alternatives may be tried. -/
  | failure
  /-- Nothing else is to be tried. -/
  | error
  deriving DecidableEq

/-- The severity in words. -/
def Severity.text : Severity → String
  | .failure => "failure"
  | .error => "error"

/-- Why a parse did not succeed: what was expected, and where. -/
structure NoSuccess where
  severity : Severity
  expected : String
  location : Location
  deriving DecidableEq

namespace NoSuccess

/-- The input did not match. -/
def failure (expected : String) (location : Location) : NoSuccess :=
  ⟨.failure, expected, location⟩

/-- The whole parse is to end. -/
def error (expected : String) (location : Location) : NoSuccess :=
  ⟨.error, expected, location⟩

def isFailure (reason : NoSuccess) : Bool :=
  reason.severity = .failure

def isError (reason : NoSuccess) : Bool :=
  reason.severity = .error

/-- The same report with another expectation. -/
def expecting (reason : NoSuccess) (expected : String) : NoSuccess :=
  { reason with expected }

/-- The report in words. -/
def message (reason : NoSuccess) : String :=
  s!"{reason.severity.text} at {reason.location.text}: expected {reason.expected}"

@[simp] theorem isFailure_failure (expected : String) (l : Location) :
    (failure expected l).isFailure = true := rfl

@[simp] theorem isFailure_error (expected : String) (l : Location) :
    (error expected l).isFailure = false := rfl

/-- Another expectation does not make a failure of an error, nor the other way round. -/
@[simp] theorem isFailure_expecting (reason : NoSuccess) (expected : String) :
    (reason.expecting expected).isFailure = reason.isFailure := rfl

/-- What is no success is either a failure or an error. -/
theorem isError_eq_not_isFailure (reason : NoSuccess) :
    reason.isError = !reason.isFailure := by
  rcases reason with ⟨_ | _, _, _⟩ <;> rfl

end NoSuccess

/-- What a parser returns for a cursor. -/
inductive Outcome (C α : Type) where
  /-- A value, and the cursor behind what was consumed. -/
  | success (value : α) (rest : C)
  | noSuccess (reason : NoSuccess)

namespace Outcome

variable {C α β : Type}

/-- Applies a function to the value of a success. -/
def map (f : α → β) : Outcome C α → Outcome C β
  | .success value rest => .success (f value) rest
  | .noSuccess reason => .noSuccess reason

/-- The value of a success. -/
def value? : Outcome C α → Option α
  | .success value _ => some value
  | .noSuccess _ => none

/-- The cursor behind what a success consumed. -/
def rest? : Outcome C α → Option C
  | .success _ rest => some rest
  | .noSuccess _ => none

def isFailure : Outcome C α → Bool
  | .success _ _ => false
  | .noSuccess reason => reason.isFailure

def isError : Outcome C α → Bool
  | .success _ _ => false
  | .noSuccess reason => reason.isError

@[simp] theorem map_success (f : α → β) (a : α) (c : C) :
    (success a c).map f = .success (f a) c := rfl

/-- Mapping leaves what is no success as it is. -/
@[simp] theorem map_noSuccess (f : α → β) (reason : NoSuccess) :
    (noSuccess reason : Outcome C α).map f = .noSuccess reason := rfl

end Outcome

end Parsing
