import TournamentDraw.Value.Describe

/-!
# Comparing values

Stored records keep whatever value they were given, so the engine compares values of any
kind. Truth values count as the numbers 0 and 1, and integers and binary64 numbers compare
by their exact values; not-a-number is equal to nothing and neither below nor above anything.
Texts compare by their code points, lists by the first place where they differ and else by
their lengths, objects are equal when they have the same keys with equal values. No other
kinds are ordered: comparing them is refused with a message that names the operator and the
two kinds, in the order they were written.
-/

namespace TournamentDraw

/-- Why an operation refuses its operands: their kinds do not go with it, or a value of a
fitting kind is still unacceptable. -/
inductive OperandError where
  /-- Operands of kinds the operation does not take. -/
  | unsupported (msg : String)
  /-- A value that the operation refuses. -/
  | invalid (msg : String)
  /-- A number too large for the binary64 range that the operation needs. -/
  | overflow (msg : String)
  deriving Repr, DecidableEq

/-- The message of an operand error. -/
def OperandError.message : OperandError → String
  | .unsupported m | .invalid m | .overflow m => m

/-- A number on the extended real line: a fraction with a positive denominator, or an
infinity. -/
inductive Extended where
  | negInf
  | finite (num : Int) (den : Nat)
  | posInf
  deriving Repr, DecidableEq

/-- The order of the extended real line. -/
def Extended.cmp : Extended → Extended → Ordering
  | .negInf, .negInf | .posInf, .posInf => .eq
  | .negInf, _ | _, .posInf => .lt
  | _, .negInf | .posInf, _ => .gt
  | .finite a b, .finite c d => compare (a * d) (c * b)

/-- The comparisons that values are put to. -/
inductive Relation where
  | lt
  | le
  | gt
  | ge
  deriving Repr, DecidableEq

namespace Relation

/-- The operator as written. -/
def symbol : Relation → String
  | .lt => "<"
  | .le => "<="
  | .gt => ">"
  | .ge => ">="

/-- Whether an outcome of a comparison satisfies the relation. -/
def holds : Relation → Ordering → Bool
  | .lt, o => o == .lt
  | .le, o => o != .gt
  | .gt, o => o == .gt
  | .ge, o => o != .lt

end Relation

namespace Value

/-- The name of a value's kind, as messages name it. -/
def kindName : Value → String
  | .null => "NoneType"
  | .bool _ => "bool"
  | .int _ => "int"
  | .float _ => "float"
  | .str _ => "str"
  | .list _ => "list"
  | .obj _ => "dict"

/-- Whether the value is a number: a truth value, an integer or a binary64 number. -/
def isNumber : Value → Bool
  | .bool _ | .int _ | .float _ => true
  | _ => false

/-- The exact number that a number stands for; none for not-a-number and for values that
are not numbers. -/
def asExtended? : Value → Option Extended
  | .bool b => some (.finite (if b then 1 else 0) 1)
  | .int n => some (.finite n 1)
  | .float (.finite x) => let (a, b) := x.toFraction; some (.finite a b)
  | .float .negZero => some (.finite 0 1)
  | .float (.infinity neg) => some (if neg then .negInf else .posInf)
  | _ => none

/-- The order of two numbers by their exact values; none when one is not-a-number. -/
def numberCmp? (a b : Value) : Option Ordering :=
  match a.asExtended?, b.asExtended? with
  | some x, some y => some (x.cmp y)
  | _, _ => none

/-- The order of two texts by their code points. -/
def textCmp (a b : String) : Ordering :=
  compare (Text.codePoints a) (Text.codePoints b)

mutual

/-- Equality of values: numbers by their exact values, texts by their characters, lists
item by item, objects key by key whatever the order of their members. -/
def eqv : Value → Value → Bool
  | .null, .null => true
  | .str a, .str b => a == b
  | .list xs, .list ys => eqvItems xs ys
  | .obj fs, .obj gs => fs.length == gs.length && eqvMembers fs gs
  | a, b => numberCmp? a b == some .eq

/-- Equality of two lists of values, item by item. -/
def eqvItems : List Value → List Value → Bool
  | [], [] => true
  | x :: xs, y :: ys => eqv x y && eqvItems xs ys
  | _, _ => false

/-- Whether every member of the first object has its key in the second, with an equal
value. -/
def eqvMembers : List (String × Value) → List (String × Value) → Bool
  | [], _ => true
  | (k, v) :: fs, gs =>
    (match gs.lookup k with
      | some w => eqv v w
      | none => false) && eqvMembers fs gs

end

/-- The refusal to compare values of two kinds. -/
def unordered (r : Relation) (a b : Value) : OperandError :=
  .unsupported s!"'{r.symbol}' not supported between instances of '{a.kindName}' and '{b.kindName}'"

mutual

/-- Whether `a r b` holds: numbers by their exact values (never with not-a-number), texts
by their code points, lists by their first differing items and else by their lengths. Other
kinds are refused. -/
def relate (r : Relation) : Value → Value → Except OperandError Bool
  | .str a, .str b => .ok (r.holds (textCmp a b))
  | .list xs, .list ys => relateItems r xs ys
  | a, b =>
    if a.isNumber ∧ b.isNumber then
      .ok (match numberCmp? a b with
        | some o => r.holds o
        | none => false)
    else .error (unordered r a b)

/-- The relation between two lists: decided by the first items that are not equal, else by
the lengths. -/
def relateItems (r : Relation) : List Value → List Value → Except OperandError Bool
  | x :: xs, y :: ys => if eqv x y then relateItems r xs ys else relate r x y
  | xs, ys => .ok (r.holds (compare xs.length ys.length))

end

/-- Whether a value is true in a condition, as a result value: itself when true, else the
truth value of the alternative. This is how a disjunction of a value with a test reads. -/
def orElse (v : Value) (alt : Bool) : Value :=
  if v.truthy then v else .bool alt

end Value

end TournamentDraw
