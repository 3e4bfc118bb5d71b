import TournamentDraw.Binary64.Double
import TournamentDraw.Text.Numeral

/-!
# Reading binary64 numbers from text

A text writes a binary64 number when, white space around it aside, it is an optional sign
followed by an infinity (`inf` or `infinity`), not a number (`nan`), in any case, or a
decimal: digits with an optional point and fraction, or a point and a fraction, then an
optional exponent `e` or `E` with an optional sign and digits. Digits may be those of any
script, with single underscores between two of them. The decimal is rounded to the nearest
binary64 value.
-/

namespace TournamentDraw.Binary64

/-- The value of decimal digits. -/
def digitsValue (ds : List Nat) : Nat :=
  ds.foldl (fun acc d => 10 * acc + d) 0

/-- The exponent part of a decimal, `e` or `E`, an optional sign and digits, if the
characters are one. -/
def exponentOf? : List Char → Option Int
  | e :: rest =>
    if e == 'e' || e == 'E' then
      let (neg, ds) := Text.signed rest
      match Text.leadingDigits 10 ds with
      | some (d :: more, []) =>
        let n : Int := digitsValue (d :: more)
        some (if neg then -n else n)
      | _ => none
    else none
  | [] => some 0

/-- The unsigned decimal the characters write, as significand and power of ten. -/
def decimalOf? (cs : List Char) : Option (Nat × Int) := do
  let (whole, rest) ← Text.leadingDigits 10 cs
  let (frac, rest) ← match rest with
    | '.' :: more => Text.leadingDigits 10 more
    | _ => some ([], rest)
  if whole.isEmpty && frac.isEmpty then none
  let e ← exponentOf? rest
  return (digitsValue (whole ++ frac), e - frac.length)

/-- The number a text writes, or `none`. -/
def readDouble? (text : String) : Option Double :=
  let (neg, cs) := Text.signed (Text.trimmedChars text)
  let word := String.ofList (cs.map Char.toLower)
  if word == "inf" || word == "infinity" then some (.infinity neg)
  else if word == "nan" then some .nan
  else (decimalOf? cs).map fun (m, e) => Double.ofDecimal neg m e

end TournamentDraw.Binary64
