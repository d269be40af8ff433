import Parsing.Value.Basic

/-!
# Functions on values

Functions of one or two values and tests on a value, by name. Whole numbers are 64-bit words, and
arithmetic on them wraps around. Where a function has no meaning, it gives a node.
-/

namespace Parsing.Value

/-! ## Arithmetic -/

/-- Both values as binary64 numbers, if they are numbers and one of them is not whole. -/
def floats? : Value → Value → Option (Float × Float)
  | .float x, .float y => some (x, y)
  | .float x, .int b => some (x, b.toFloat)
  | .int a, .float y => some (a.toFloat, y)
  | _, _ => none

/-- An operation on numbers: on two whole ones as one, else as binary64. -/
def arithmetic (name : String) (whole : Int64 → Int64 → Int64) (real : Float → Float → Float)
    (a b : Value) : Value :=
  match a, b with
  | .int m, .int n => .int (whole m n)
  | _, _ =>
    match floats? a b with
    | some (x, y) => .float (real x y)
    | none => .node name [a, b]

def add : Value → Value → Value := arithmetic "add" (· + ·) (· + ·)

def sub : Value → Value → Value := arithmetic "sub" (· - ·) (· - ·)

def mul : Value → Value → Value := arithmetic "mul" (· * ·) (· * ·)

/-- Division; of whole numbers it drops the remainder, and by zero it gives zero. -/
def div : Value → Value → Value := arithmetic "div" (· / ·) (· / ·)

/-- The second number less the first. -/
def rsub : Value → Value → Value := arithmetic "rsub" (fun a b => b - a) (fun x y => y - x)

/-- One if the first number is less than the second, else zero. -/
def lt (a b : Value) : Value :=
  let number (b : Bool) : Value := .int (if b then 1 else 0)
  match a, b with
  | .int m, .int n => number (m < n)
  | _, _ =>
    match floats? a b with
    | some (x, y) => number (x < y)
    | none => .node "lt" [a, b]

/-- The power of a whole number to an exponent between 0 and 64. -/
def pow : Value → Value → Value
  | .int a, .int b =>
    let exponent := min b.toInt.toNat 64
    .int ((List.replicate exponent a).foldl (· * ·) 1)
  | a, b => .node "pow" [a, b]

/-- The product of the whole numbers up to one; those up to 66 and beyond have 64 factors of two. -/
def factorial (n : Int64) : Int64 :=
  if 66 ≤ n then 0
  else ((List.range n.toInt.toNat).map fun i => Int64.ofNat (i + 1)).foldl (· * ·) 1

/-! ## Lists and texts -/

/-- The values of a list joined from the left, or a value for the empty list. -/
def reduce (f : Value → Value → Value) (empty : Value) : List Value → Value
  | [] => empty
  | a :: as => as.foldl f a

mutual

/-- The characters of a character, a text, or a list of such values. -/
def characters? : Value → Option (List Char)
  | .char c => some [c]
  | .text s => some s.toList
  | .list items => charactersOfAll? items
  | _ => none

/-- The characters of several values. -/
def charactersOfAll? : List Value → Option (List Char)
  | [] => some []
  | a :: as => do return (← characters? a) ++ (← charactersOfAll? as)

end

/-! ## Functions by name -/

/-- A function of one value. -/
def unary (name : String) (a : Value) : Value :=
  match name, a with
  | "id", a => a
  | "neg", .int n => .int (-n)
  | "neg", .float x => .float (-x)
  | "inc", .int n => .int (n + 1)
  | "double", .int n => .int (n * 2)
  | "fact", .int n => .int (factorial n)
  | "len", .text s => ofNat s.length
  | "len", .list items => ofNat items.length
  | "sum", .list items => reduce add (.int 0) items
  | "prod", .list items => reduce mul (.int 1) items
  | "rev", .list items => .list items.reverse
  | "fst", .pair a _ => a
  | "snd", .pair _ b => b
  | "concat", a =>
    match characters? a with
    | some cs => .text (String.ofList cs)
    | none => .node name [a]
  | "unopt", .absent => .unit
  | "unopt", .present a => a
  | "float", .int n => .float n.toFloat
  | name, a => .node name [a]

/-- A function of two values. -/
def binary (name : String) (a b : Value) : Value :=
  match name, a, b with
  | "add", a, b => add a b
  | "sub", a, b => sub a b
  | "mul", a, b => mul a b
  | "div", a, b => div a b
  | "rsub", a, b => rsub a b
  | "lt", a, b => lt a b
  | "pow", a, b => pow a b
  | "left", a, _ => a
  | "right", _, b => b
  | "pair", a, b => .pair a b
  | "list", a, b => .list [a, b]
  | "cons", a, .list items => .list (a :: items)
  | name, a, b => .node name [a, b]

/-- The arithmetic that an operator character stands for. -/
def byOperator : Char → Option (Value → Value → Value)
  | '+' => some add
  | '-' => some sub
  | '*' => some mul
  | '/' => some div
  | _ => none

/-- A function of two values and the operator between them. -/
def binaryWith (name : String) (a operator b : Value) : Value :=
  match name, operator with
  | "by_op", .char c =>
    match byOperator c with
    | some f => f a b
    | none => .node name [a, operator, b]
  | name, operator => .node name [a, operator, b]

/-! ## Tests -/

/-- A test on a value; it does not hold of values that it is not about. -/
inductive Test where
  | any
  | never
  | equal (a : Value)
  | different (a : Value)
  | member (as : List Value)
  | less (n : Int64)
  | greater (n : Int64)
  | even
  | character (accepts : Char → Bool)
  | shorter (n : Nat)
  | isInt
  | isText

/-- Whether a value passes a test. -/
def Test.accepts : Test → Value → Bool
  | .any, _ => true
  | .never, _ => false
  | .equal a, b => b == a
  | .different a, b => b != a
  | .member as, b => as.any (b == ·)
  | .less n, .int m => m < n
  | .greater n, .int m => n < m
  | .even, .int m => m % 2 == 0
  | .character accepts, .char c => accepts c
  | .shorter n, .text s => s.length < n
  | .shorter n, .list items => items.length < n
  | .isInt, .int _ => true
  | .isText, .text _ => true
  | _, _ => false

end Parsing.Value
