import TournamentDraw.Value.Compare

/-!
# Arithmetic on values

Counts and goal sums are kept as values, since a stored record may hold a value of any kind
where a number is expected. Integers (and truth values, as 0 and 1) add and multiply
exactly; once a binary64 number takes part the integer is rounded to binary64, which refuses
an integer beyond its range, and the result is rounded. Texts and lists join under addition and repeat when multiplied by a count. Any
other pairing of kinds is refused with a message that names the operator and both kinds.
-/

namespace TournamentDraw

/-- A number: an integer or a binary64 number. -/
inductive Number where
  | int (n : Int)
  | float (x : Double)
  deriving Repr, DecidableEq

namespace Number

/-- The number in binary64, an integer rounded to the nearest value; an integer that rounds
beyond the binary64 range is refused. -/
def toDouble : Number → Except OperandError Double
  | .int n =>
    match Double.ofFraction n 1 with
    | .infinity _ => .error (.overflow "int too large to convert to float")
    | x => .ok x
  | .float x => .ok x

/-- The number as a value. -/
def toValue : Number → Value
  | .int n => .int n
  | .float x => .float x

/-- The sum of two numbers: exact for integers, else rounded. -/
def add : Number → Number → Except OperandError Number
  | .int m, .int n => .ok (.int (m + n))
  | x, y => do return .float ((← x.toDouble).add (← y.toDouble))

/-- The difference of two numbers: exact for integers, else rounded. -/
def sub : Number → Number → Except OperandError Number
  | .int m, .int n => .ok (.int (m - n))
  | x, y => do return .float ((← x.toDouble).add (← y.toDouble).neg)

end Number

namespace Value

/-- The number a value stands for: truth values as 0 and 1. -/
def number? : Value → Option Number
  | .bool b => some (.int (if b then 1 else 0))
  | .int n => some (.int n)
  | .float x => some (.float x)
  | _ => none

/-- The refusal of an operator on operands of two kinds. -/
def unsupportedOperands (op : String) (a b : Value) : OperandError :=
  .unsupported s!"unsupported operand type(s) for {op}: '{a.kindName}' and '{b.kindName}'"

/-- `a + b`, written with the operator `op` (`+` or `+=`): numbers add, texts and lists
join. -/
def plus (op : String) (a b : Value) : Except OperandError Value :=
  match a, b with
  | .str s, .str t => .ok (.str (s ++ t))
  | .list xs, .list ys => .ok (.list (xs ++ ys))
  | _, _ =>
    match a.number?, b.number? with
    | some x, some y => (x.add y).map Number.toValue
    | _, _ => .error (unsupportedOperands op a b)

/-- `a - b` for numbers. -/
def minus (a b : Value) : Except OperandError Value :=
  match a.number?, b.number? with
  | some x, some y => (x.sub y).map Number.toValue
  | _, _ => .error (unsupportedOperands "-" a b)

/-- `k * v` for an integer `k`: a number is multiplied, a text or list is repeated `k` times
(none when `k` is not positive). -/
def times (k : Int) (v : Value) : Except OperandError Value :=
  match v with
  | .bool b => .ok (.int (if b then k else 0))
  | .int n => .ok (.int (k * n))
  | .float x => .ok (.float (if k < 0 then (x.mulNat k.natAbs).neg else x.mulNat k.natAbs))
  | .str s => .ok (.str (String.join (List.replicate k.toNat s)))
  | .list xs => .ok (.list (List.replicate k.toNat xs).flatten)
  | _ => .error (unsupportedOperands "*" (.int k) v)

/-- The sum of values from the integer 0, added from the left. -/
def total (vs : List Value) : Except OperandError Value :=
  vs.foldlM (plus "+") (.int 0)

/-- The lesser of two values, the first unless the second is below it. -/
def least (a b : Value) : Except OperandError Value := do
  if ← relate .lt b a then return b else return a

/-- The end of a slice given as a value: an integer (truth values as 0 and 1), or none for
no end. -/
def sliceEnd? : Value → Except OperandError (Option Int)
  | .int n => .ok (some n)
  | .bool b => .ok (some (if b then 1 else 0))
  | .null => .ok none
  | _ => .error (.unsupported "slice indices must be integers or None or have an __index__ method")

/-- An integer written with its sign always shown; truth values as 0 and 1. Other numbers
and texts are refused as values, other kinds as unformattable. -/
def signedText : Value → Except OperandError String
  | .int n => .ok (if n ≥ 0 then s!"+{n}" else toString n)
  | .bool b => .ok (if b then "+1" else "+0")
  | v@(.float _) | v@(.str _) =>
    .error (.invalid s!"Unknown format code 'd' for object of type '{v.kindName}'")
  | v => .error (.unsupported s!"unsupported format string passed to {v.kindName}.__format__")

end Value

end TournamentDraw
