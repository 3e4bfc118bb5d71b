import TournamentDraw.Binary64.Double
import TournamentDraw.Text.Quote

/-!
# Values loaded from YAML

A loaded YAML node is a value of one of the types YAML 1.1 knows: null, a truth value, an
integer, a binary64 number, a text, bytes (`!!binary`), a date or a date and time
(`!!timestamp`), a list, a mapping with keys of any of the scalar types, a set (`!!set`), or a
list of pairs (`!!omap`, `!!pairs`). A collection that contains itself, through an alias
inside its own anchor, holds a mark where it is met again.

Values are shown as messages show them: at the top, texts, dates and times as themselves;
inside a collection, texts quoted, dates and times in constructor form; bytes as `b'...'`
everywhere. Keys of a mapping are compared as values: numbers by their value, so `1`, `1.0`
and `true` are the same key; times with a zone by their instant.
-/

namespace TournamentDraw.Yaml

/-- A calendar date. -/
structure Date where
  year : Nat
  month : Nat
  day : Nat
  deriving Repr, DecidableEq

/-- A date and time, with its offset from UTC in minutes when it has a zone. -/
structure Stamp where
  date : Date
  hour : Nat
  minute : Nat
  second : Nat
  micro : Nat
  zone : Option Int
  deriving Repr, DecidableEq

/-- A value loaded from YAML. -/
inductive Datum where
  | none
  | bool (b : Bool)
  | int (n : Int)
  | float (x : Double)
  | str (s : String)
  | bytes (bs : List Nat)
  | date (d : Date)
  | stamp (t : Stamp)
  | list (items : List Datum)
  | dict (entries : List (Datum × Datum))
  | set (items : List Datum)
  | pairs (items : List (Datum × Datum))
  /-- A collection met again inside itself: a mapping (`true`) or a list. -/
  | again (mapping : Bool)
  deriving Repr, Inhabited

/-- Days from 1970-01-01 to a date of the proleptic Gregorian calendar. -/
def daysFromCivil (y m d : Nat) : Int :=
  let y : Int := if m ≤ 2 then (y : Int) - 1 else y
  let era := (if y ≥ 0 then y else y - 399) / 400
  let yoe := y - era * 400
  let mp : Int := if m > 2 then (m : Int) - 3 else (m : Int) + 9
  let doy := (153 * mp + 2) / 5 + (d : Int) - 1
  let doe := yoe * 365 + yoe / 4 - yoe / 100 + doy
  era * 146097 + doe - 719468

/-- The instant of a time with a zone, in microseconds from 1970 in UTC. -/
def Stamp.instant (t : Stamp) : Int :=
  let wall := ((daysFromCivil t.date.year t.date.month t.date.day * 24 + t.hour) * 60 + t.minute) * 60 + t.second
  (wall - (t.zone.getD 0) * 60) * 1000000 + t.micro

/-- Two decimal digits. -/
def twoDigits (n : Nat) : String :=
  if n < 10 then "0" ++ toString n else toString n

/-- A number padded with zeros to `width` digits. -/
def padded (width n : Nat) : String :=
  let s := toString n
  String.ofList (List.replicate (width - s.length) '0') ++ s

/-- A date as `yyyy-mm-dd`. -/
def Date.text (d : Date) : String :=
  padded 4 d.year ++ "-" ++ twoDigits d.month ++ "-" ++ twoDigits d.day

/-- An offset from UTC as `+hh:mm`. -/
def zoneText (minutes : Int) : String :=
  let sign := if minutes < 0 then "-" else "+"
  let m := minutes.natAbs
  sign ++ twoDigits (m / 60) ++ ":" ++ twoDigits (m % 60)

/-- A date and time as `yyyy-mm-dd hh:mm:ss`, with microseconds and zone when it has them. -/
def Stamp.text (t : Stamp) : String :=
  t.date.text ++ " " ++ twoDigits t.hour ++ ":" ++ twoDigits t.minute ++ ":" ++ twoDigits t.second ++
    (if t.micro == 0 then "" else "." ++ padded 6 t.micro) ++
    (match t.zone with
     | some z => zoneText z
     | Option.none => "")

/-- A span of minutes as a time difference in constructor form. -/
def spanText (minutes : Int) : String :=
  let total := minutes * 60
  let days := total / 86400
  let seconds := total % 86400
  let parts := (if days == 0 then [] else ["days=" ++ toString days]) ++
    (if seconds == 0 then [] else ["seconds=" ++ toString seconds])
  "datetime.timedelta(" ++ (if parts.isEmpty then "0" else ", ".intercalate parts) ++ ")"

/-- A zone in constructor form. -/
def zoneRepr (minutes : Int) : String :=
  if minutes == 0 then "datetime.timezone.utc"
  else "datetime.timezone(" ++ spanText minutes ++ ")"

/-- A date and time in constructor form; trailing zero seconds and microseconds are left
out. -/
def Stamp.repr (t : Stamp) : String :=
  let fields := [t.date.year, t.date.month, t.date.day, t.hour, t.minute] ++
    (if t.micro != 0 then [t.second, t.micro] else if t.second != 0 then [t.second] else [])
  "datetime.datetime(" ++ ", ".intercalate (fields.map toString) ++
    (match t.zone with
     | some z => ", tzinfo=" ++ zoneRepr z
     | Option.none => "") ++ ")"

/-- Bytes as `b'...'`: double quotes when they hold a single quote and no double quote;
the quote, backslash, tab, line feed and carriage return escaped, and bytes outside printable
ASCII as `\xhh`. -/
def bytesText (bs : List Nat) : String :=
  let q : Nat := if bs.contains 39 && !bs.contains 34 then 34 else 39
  let esc (b : Nat) : String :=
    if b == q || b == 92 then "\\" ++ (Char.ofNat b).toString
    else if b == 9 then "\\t"
    else if b == 10 then "\\n"
    else if b == 13 then "\\r"
    else if b < 32 || 127 ≤ b then "\\x" ++ Text.hexPadded 2 b
    else (Char.ofNat b).toString
  "b" ++ (Char.ofNat q).toString ++ String.join (bs.map esc) ++ (Char.ofNat q).toString

namespace Datum

/-- The name of a value's type, as errors name it. -/
def typeName : Datum → String
  | .none => "NoneType"
  | .bool _ => "bool"
  | .int _ => "int"
  | .float _ => "float"
  | .str _ => "str"
  | .bytes _ => "bytes"
  | .date _ => "datetime.date"
  | .stamp _ => "datetime.datetime"
  | .list _ | .pairs _ => "list"
  | .dict _ => "dict"
  | .set _ => "set"
  | .again m => if m then "dict" else "list"

/-- Whether a value may be a key: collections may not. -/
def hashable : Datum → Bool
  | .list _ | .dict _ | .set _ | .pairs _ | .again _ => false
  | _ => true

/-- The exact value of a number, as a fraction with a positive denominator; truth values are
0 and 1. Not a number and the infinities have none. -/
def fraction? : Datum → Option (Int × Nat)
  | .bool b => some ((if b then 1 else 0), 1)
  | .int n => some (n, 1)
  | .float (.finite x) => some x.toFraction
  | .float .negZero => some (0, 1)
  | _ => Option.none

/-- Whether two keys are the same key. -/
def sameKey : Datum → Datum → Bool
  | .none, .none => true
  | .str a, .str b => a == b
  | .bytes a, .bytes b => a == b
  | .date a, .date b => a == b
  | .stamp a, .stamp b =>
    match a.zone, b.zone with
    | some _, some _ => a.instant == b.instant
    | Option.none, Option.none => a == b
    | _, _ => false
  | .float .nan, .float .nan => true
  | .float (.infinity a), .float (.infinity b) => a == b
  | a, b =>
    match a.fraction?, b.fraction? with
    | some (p, q), some (r, s) => p * (s : Int) == r * (q : Int)
    | _, _ => false

/-- Entries with a key set: its value replaced where the key already is, else added last. -/
def insertEntry (es : List (Datum × Datum)) (k v : Datum) : List (Datum × Datum) :=
  if es.any (sameKey ·.1 k) then es.map fun e => if sameKey e.1 k then (e.1, v) else e
  else es ++ [(k, v)]

/-- The member of a mapping under a text key. -/
def member? (entries : List (Datum × Datum)) (key : String) : Option Datum :=
  (entries.find? fun e => sameKey e.1 (.str key)).map (·.2)

mutual

/-- A value as shown inside a collection. -/
def repr : Datum → String
  | .none => "None"
  | .bool b => if b then "True" else "False"
  | .int n => toString n
  | .float x => x.toText
  | .str s => Text.quote s
  | .bytes bs => bytesText bs
  | .date d => "datetime.date(" ++ toString d.year ++ ", " ++ toString d.month ++ ", " ++
      toString d.day ++ ")"
  | .stamp t => t.repr
  | .list xs => "[" ++ reprItems xs ++ "]"
  | .dict es => "\x7b" ++ reprEntries es ++ "\x7d"
  | .set xs => if xs.isEmpty then "set()" else "\x7b" ++ reprItems xs ++ "\x7d"
  | .pairs ps => "[" ++ reprPairs ps ++ "]"
  | .again m => if m then "\x7b...\x7d" else "[...]"

/-- Items shown and separated by commas. -/
def reprItems : List Datum → String
  | [] => ""
  | [x] => repr x
  | x :: xs => repr x ++ ", " ++ reprItems xs

/-- Mapping entries shown as `key: value`, separated by commas. -/
def reprEntries : List (Datum × Datum) → String
  | [] => ""
  | [(k, v)] => repr k ++ ": " ++ repr v
  | (k, v) :: es => repr k ++ ": " ++ repr v ++ ", " ++ reprEntries es

/-- Pairs shown as `(key, value)`, separated by commas. -/
def reprPairs : List (Datum × Datum) → String
  | [] => ""
  | [(k, v)] => "(" ++ repr k ++ ", " ++ repr v ++ ")"
  | (k, v) :: ps => "(" ++ repr k ++ ", " ++ repr v ++ "), " ++ reprPairs ps

end

/-- A value as shown at the top of a message. -/
def text : Datum → String
  | .str s => s
  | .date d => d.text
  | .stamp t => t.text
  | d => d.repr

end Datum

end TournamentDraw.Yaml
