import TournamentDraw.Value.Compare
import TournamentDraw.Text.CodePoint

/-!
# How the store keeps values

Every column of the store has a declared kind, and a value written to it is kept the way the
column's kind says. An integer column keeps integers of the signed 64-bit range as they are
and refuses larger ones; a truth value becomes `0` or `1`; a binary64 number that is whole and
strictly inside the 64-bit range becomes that integer, any other stays a binary64 number; a
text that reads as a number becomes that number, by the same rule, and any other text stays a
text. Every text the store is given, to keep or to look for, is written in UTF-8, which has no
form for a surrogate: such a text is refused.

Kept values are sorted with null first, then numbers by value, then texts by their code
points.
-/

namespace TournamentDraw

-- Powers and sums of numbers are the core ones, with no other instance in scope taking over.
attribute [local instance (2000)] instPowNat Zero.ofOfNat0

/-- Why the store refuses a value. -/
inductive CellFault where
  /-- An integer beyond the signed 64-bit range. -/
  | integerRange
  /-- A text that UTF-8 cannot write, with the message that names its first surrogate. -/
  | unencodable (msg : String)
  deriving Repr, DecidableEq

/-- The message of a refusal. -/
def CellFault.message : CellFault → String
  | .integerRange => "Python int too large to convert to SQLite INTEGER"
  | .unencodable m => m

namespace Cell

/-- The least and the greatest integer of the signed 64-bit range. -/
def least : Int := -(2 ^ (63 : Nat))

/-- The greatest integer of the signed 64-bit range. -/
def greatest : Int := 2 ^ (63 : Nat) - 1

/-- Refuse the first text that UTF-8 cannot write. -/
def writable (texts : List String) : Except CellFault Unit :=
  match texts.findSome? Text.utf8Refusal? with
  | some m => .error (.unencodable m)
  | none => .ok ()

/-- The blanks allowed around a number: space, tab, line feed, vertical tab, form feed and
carriage return. -/
def isBlank (c : Char) : Bool :=
  c == ' ' || c == '\t' || c == '\n' || c == '\x0b' || c == '\x0c' || c == '\r'

/-- Whether a character is an ASCII digit. -/
def isDigit (c : Char) : Bool :=
  '0' ≤ c && c ≤ '9'

/-- The value of ASCII digits. -/
def digitsValue (ds : List Char) : Nat :=
  ds.foldl (fun n c => 10 * n + (c.toNat - '0'.toNat)) 0

/-- A sign, if the characters start with one: whether it is a minus, and the rest. -/
def sign : List Char → Bool × List Char
  | '-' :: cs => (true, cs)
  | '+' :: cs => (false, cs)
  | cs => (false, cs)

/-- A binary64 number kept in an integer column: the integer it is, when it is whole and
strictly inside the 64-bit range, else itself. -/
def ofDouble (x : Double) : Value :=
  match x with
  | .finite b =>
    let (a, d) := b.toFraction
    if a % (d : Int) = 0 ∧ least < a / d ∧ a / d < greatest then .int (a / d) else .float x
  | .negZero => .int 0
  | _ => .float x

/-- The number a text writes, if it writes one: blanks around it, an optional sign, digits
with at most one point among them and at least one digit, then an optional exponent of `e` or
`E`, an optional sign and digits. Digits alone that fit the 64-bit range are an integer; any
other number is rounded to binary64 and kept as `ofDouble` keeps it. -/
def numericText? (s : String) : Option Value := do
  let cs := ((s.toList.dropWhile isBlank).reverse.dropWhile isBlank).reverse
  let (neg, cs) := sign cs
  let whole := cs.takeWhile isDigit
  let rest := cs.dropWhile isDigit
  let (frac, rest, point) := match rest with
    | '.' :: r => (r.takeWhile isDigit, r.dropWhile isDigit, true)
    | _ => ([], rest, false)
  if whole.isEmpty ∧ frac.isEmpty then none
  let (ex, rest, hasExp) ← match rest with
    | c :: r =>
      if c == 'e' || c == 'E' then
        let (eneg, r) := sign r
        let eds := r.takeWhile isDigit
        if eds.isEmpty then none
        else
          let e : Int := digitsValue eds
          some (if eneg then -e else e, r.dropWhile isDigit, true)
      else some (0, rest, false)
    | [] => some (0, [], false)
  if !rest.isEmpty then none
  let m := digitsValue (whole ++ frac)
  let n : Int := if neg then -(m : Int) else m
  if !point ∧ !hasExp ∧ least ≤ n ∧ n ≤ greatest then return .int n
  return ofDouble (Double.ofDecimal neg m (ex - frac.length))

end Cell

namespace Value

/-- The value an integer column keeps for a value written to it, or the refusal. Values of
other kinds are kept as they are. -/
def integerCell (v : Value) : Except CellFault Value :=
  match v with
  | .bool b => .ok (.int (if b then 1 else 0))
  | .int n => if Cell.least ≤ n ∧ n ≤ Cell.greatest then .ok v else .error .integerRange
  | .float x => .ok (Cell.ofDouble x)
  | .str s => do
    Cell.writable [s]
    return (Cell.numericText? s).getD v
  | _ => .ok v

/-- The rank of a kept value's kind in the store's order: null, numbers, texts, the rest. -/
def cellRank : Value → Nat
  | .null => 0
  | .bool _ | .int _ | .float _ => 1
  | .str _ => 2
  | _ => 3

/-- The order of kept values: by kind, numbers by value, texts by their code points. -/
def cellCompare (a b : Value) : Ordering :=
  match a, b with
  | .str s, .str t => textCmp s t
  | _, _ =>
    match compare a.cellRank b.cellRank with
    | .eq => (numberCmp? a b).getD .eq
    | o => o

end Value

end TournamentDraw
