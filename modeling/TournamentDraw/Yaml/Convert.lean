import TournamentDraw.Yaml.Datum
import TournamentDraw.Yaml.Fault
import TournamentDraw.Yaml.Tag
import TournamentDraw.Binary64.Read
import TournamentDraw.Text.Case
import TournamentDraw.Text.Numeral

/-!
# Scalars converted to values

The text of a scalar becomes the value its tag asks for:

* an integer: separators `_` dropped, an optional sign, then `0` alone, binary after `0b`,
  hexadecimal after `0x`, octal after another leading `0`, base 60 when it holds a `:`
  (each part decimal), else decimal; each part is read as an integer numeral may be;
* a number: separators dropped and letters lowered, an optional sign, then `.inf`, `.nan`,
  base 60 parts summed from the last in binary64 arithmetic, or a decimal numeral;
* a truth value: the lowered text must be `yes`, `no`, `true`, `false`, `on` or `off`;
* a timestamp: a date `yyyy-m-d`, optionally followed by `T` or blanks and a time
  `h:mm:ss`, a fraction (its first six digits are the microseconds) and a zone (`Z`, or a
  sign, hours and optional minutes), each field within its calendar range;
* bytes: ASCII text in base 64, where characters outside the alphabet are skipped, a pad
  `=` after two or three characters of a group ends the data, and a group cut short is
  refused.
-/

namespace TournamentDraw.Yaml

/-- An integer numeral in a base, with the fault of a text that is none. -/
def intIn (base : Nat) (text : String) : Except LoadFault Int :=
  match Text.readInteger base text with
  | .ok n => .ok n
  | .error .invalid => .error (.notInteger base text)
  | .error (.tooLong n) => .error (.longInteger n)

/-- The text without its separators. -/
def dropBars (text : String) : String :=
  String.ofList (text.toList.filter (· != '_'))

/-- The characters after a sign, and whether it was a minus; the empty text has no first
character and is refused. -/
def signOf (cs : List Char) : Except LoadFault (Bool × List Char) :=
  match cs with
  | [] => .error .emptyNumber
  | '-' :: rest => .ok (true, rest)
  | '+' :: rest => .ok (false, rest)
  | cs => .ok (false, cs)

/-- The integer of an integer scalar. -/
def intOfText (text : String) : Except LoadFault Int := do
  let (neg, cs) ← signOf (dropBars text).toList
  let v := String.ofList cs
  let signed (n : Int) : Int := if neg then -n else n
  if v == "0" then return 0
  match cs with
  | '0' :: 'b' :: rest => return signed (← intIn 2 (String.ofList rest))
  | '0' :: 'x' :: rest => return signed (← intIn 16 (String.ofList rest))
  | '0' :: _ => return signed (← intIn 8 v)
  | [] => throw .emptyNumber
  | _ =>
    if cs.contains ':' then
      let parts ← (v.splitOn ":").mapM (intIn 10)
      return signed (parts.foldl (fun acc p => 60 * acc + p) 0)
    else return signed (← intIn 10 v)

/-- A decimal numeral as a binary64 number, with the fault of a text that is none. -/
def doubleOf (text : String) : Except LoadFault Double :=
  match Binary64.readDouble? text with
  | some x => .ok x
  | none => .error (.notNumber text)

/-- The number of a number scalar. -/
def floatOfText (text : String) : Except LoadFault Double := do
  let (neg, cs) ← signOf (Text.lower (dropBars text)).toList
  let v := String.ofList cs
  let signed (x : Double) : Double := if neg then x.neg else x
  if v == ".inf" then return .infinity neg
  if v == ".nan" then return .nan
  if cs.contains ':' then
    let parts ← (v.splitOn ":").mapM doubleOf
    let (sum, _) := parts.reverse.foldl (fun (acc, base) x => (acc.add (x.mulNat base), 60 * base))
      (Double.zero false, 1)
    return signed sum
  return signed (← doubleOf v)

/-- The truth value of a truth scalar. -/
def truthOfText (text : String) : Except LoadFault Bool :=
  let w := Text.lower text
  if ["yes", "true", "on"].contains w then .ok true
  else if ["no", "false", "off"].contains w then .ok false
  else .error (.notTruth w)

/-- The fields of a timestamp's text, as digit strings: year, month, day, and if it has a
time, hour, minute, second, fraction and zone (`Z`, or sign, hours and minutes). -/
structure StampFields where
  year : String
  month : String
  day : String
  time : Option (String × String × String × String × Option (Option (Char × String × String)))

/-- The value of decimal digits. -/
def digitsNat (s : String) : Nat :=
  s.foldl (fun acc c => 10 * acc + (c.toNat - 48)) 0

/-- Up to `n` digits at the front (as many as there are), and the characters after them. -/
def someDigits (n : Nat) (cs : List Char) : String × List Char :=
  let ds := (cs.takeWhile isDigit).take n
  (String.ofList ds, cs.drop ds.length)

/-- The fields of a timestamp's text, if it has the form of one; a single line feed may end
it. -/
def stampFields? (text : String) : Option StampFields :=
  let cs := text.toList
  let cs := if cs.getLast? == some '\n' then cs.dropLast else cs
  let date : Option (String × String × String × List Char) := do
    let (y, r) := someDigits 4 cs
    if y.length != 4 then none
    let r ← match r with | '-' :: r => some r | _ => none
    let (m, r) := someDigits 2 r
    if m.isEmpty then none
    let r ← match r with | '-' :: r => some r | _ => none
    let (d, r) := someDigits 2 r
    if d.isEmpty then none
    return (y, m, d, r)
  let time (r : List Char) : Option (String × String × String × String × Option (Option (Char × String × String))) := do
    let r ← match r with
      | 'T' :: r | 't' :: r => some r
      | c :: r => if c == ' ' || c == '\t' then some (r.dropWhile fun c => c == ' ' || c == '\t') else none
      | [] => none
    let (h, r) := someDigits 2 r
    if h.isEmpty then none
    let r ← match r with | ':' :: r => some r | _ => none
    let (mi, r) := someDigits 2 r
    if mi.length != 2 then none
    let r ← match r with | ':' :: r => some r | _ => none
    let (s, r) := someDigits 2 r
    if s.length != 2 then none
    let (frac, r) := match r with
      | '.' :: f => (String.ofList (f.takeWhile isDigit), f.dropWhile isDigit)
      | _ => ("", r)
    let zone : Option (Option (Char × String × String) × List Char) :=
      match r.dropWhile fun c => c == ' ' || c == '\t' with
      | 'Z' :: rest => some (none, rest)
      | sg :: rest =>
        if sg == '-' || sg == '+' then
          let (zh, rest) := someDigits 2 rest
          if zh.isEmpty then none else
            match rest with
            | ':' :: more =>
              let (zm, after) := someDigits 2 more
              if zm.length == 2 then some (some (sg, zh, zm), after) else some (some (sg, zh, ""), rest)
            | _ => some (some (sg, zh, ""), rest)
        else none
      | [] => none
    match zone with
    | some (z, []) => return (h, mi, s, frac, some z)
    | _ => if r.isEmpty then return (h, mi, s, frac, none) else none
  match date with
  | some (y, m, d, []) => some ⟨y, m, d, none⟩
  | some (y, m, d, r) => (time r).map fun t => ⟨y, m, d, some t⟩
  | none => none

/-- Whether a year is a leap year of the Gregorian calendar. -/
def leapYear (y : Nat) : Bool :=
  y % 4 == 0 && (y % 100 != 0 || y % 400 == 0)

/-- The number of days of a month. -/
def monthDays (y m : Nat) : Nat :=
  if m == 2 then (if leapYear y then 29 else 28)
  else if m == 4 || m == 6 || m == 9 || m == 11 then 30 else 31

/-- A date, its fields checked in order. -/
def dateOf (y m d : Nat) : Except LoadFault Date :=
  if y < 1 || 9999 < y then .error (.outOfRange ("year " ++ toString y ++ " is out of range"))
  else if m < 1 || 12 < m then .error (.outOfRange "month must be in 1..12")
  else if d < 1 || monthDays y m < d then .error (.outOfRange "day is out of range for month")
  else .ok ⟨y, m, d⟩

/-- The value of a timestamp scalar: a date, or a date and time. -/
def timestampOfText (text : String) : Except LoadFault Datum := do
  let some f := stampFields? text | throw .notTimestamp
  let (y, m, d) := (digitsNat f.year, digitsNat f.month, digitsNat f.day)
  match f.time with
  | none => return .date (← dateOf y m d)
  | some (h, mi, s, frac, zone) =>
    let micro := digitsNat (String.ofList ((frac.toList.take 6) ++ List.replicate (6 - min 6 frac.length) '0'))
    let offset : Option Int ← match zone with
      | some (some (sg, zh, zm)) =>
        let minutes : Int := (digitsNat zh * 60 + digitsNat zm : Nat)
        let minutes := if sg == '-' then -minutes else minutes
        if minutes.natAbs ≥ 1440 then
          throw (.outOfRange ("offset must be a timedelta strictly between " ++
            "-timedelta(hours=24) and timedelta(hours=24), not " ++ spanText minutes ++ "."))
        pure (some minutes)
      | some none => pure (some 0)
      | none => pure none
    let date ← dateOf y m d
    let (h, mi, s) := (digitsNat h, digitsNat mi, digitsNat s)
    if 23 < h then throw (.outOfRange "hour must be in 0..23")
    if 59 < mi then throw (.outOfRange "minute must be in 0..59")
    if 59 < s then throw (.outOfRange "second must be in 0..59")
    return .stamp ⟨date, h, mi, s, micro, offset⟩

/-- The value of a base-64 character, if it is one. -/
def base64Value? (c : Char) : Option Nat :=
  if 'A' ≤ c && c ≤ 'Z' then some (c.toNat - 65)
  else if 'a' ≤ c && c ≤ 'z' then some (c.toNat - 97 + 26)
  else if '0' ≤ c && c ≤ '9' then some (c.toNat - 48 + 52)
  else if c == '+' then some 62
  else if c == '/' then some 63
  else none

/-- The bytes of a binary scalar. -/
def bytesOfText (text : String) : Except LoadFault (List Nat) :=
  if !text.toList.all (·.toNat < 128) then .error .malformed else
    -- the place in a group of four, the bits left over, the pads seen, the bytes so far
    let step (st : Nat × Nat × Nat × List Nat × Bool) (c : Char) : Nat × Nat × Nat × List Nat × Bool :=
      let (pos, left, pads, out, stop) := st
      if stop then st
      else if c == '=' then
        if pos ≥ 2 && pos + pads + 1 ≥ 4 then (pos, left, pads + 1, out, true)
        else (pos, left, (if pos ≥ 2 then pads + 1 else pads), out, false)
      else match base64Value? c with
        | none => st
        | some v =>
          match pos with
          | 0 => (1, v, 0, out, false)
          | 1 => (2, v % 16, 0, out ++ [(left * 4 + v / 16) % 256], false)
          | 2 => (3, v % 4, 0, out ++ [(left * 16 + v / 4) % 256], false)
          | _ => (0, 0, 0, out ++ [(left * 64 + v) % 256], false)
    let (pos, _, _, out, stop) := text.foldl step (0, 0, 0, [], false)
    if stop || pos == 0 then .ok out else .error .malformed

end TournamentDraw.Yaml
