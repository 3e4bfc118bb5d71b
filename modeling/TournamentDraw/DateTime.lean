/-!
# Naive dates and times

A date and time without a zone, as a competition keeps the moment it was generated: a year from
1 to 9999, a month, a day of that month in the proleptic Gregorian calendar, hours, minutes,
seconds and microseconds, each in its range, so that no other can be built. It is written in
ISO form, `YYYY-MM-DDTHH:MM:SS` followed by a dot and six digits of microseconds when there are
any, and read back from that form; a text of any other form, or with a field out of range, is
not a date and time.
-/

namespace TournamentDraw

/-- Whether a year of the proleptic Gregorian calendar has a 29th of February. -/
def leapYear (year : Nat) : Bool :=
  year % 4 == 0 && (year % 100 != 0 || year % 400 == 0)

/-- The number of days of a month of a year. -/
def daysInMonth (year month : Nat) : Nat :=
  if month = 2 then (if leapYear year then 29 else 28)
  else if month = 4 ∨ month = 6 ∨ month = 9 ∨ month = 11 then 30
  else 31

/-- A date and time without a zone, every field in its range. -/
structure DateTime where
  year : Nat
  month : Nat
  day : Nat
  hour : Nat
  minute : Nat
  second : Nat
  micro : Nat
  year_range : 1 ≤ year ∧ year ≤ 9999
  month_range : 1 ≤ month ∧ month ≤ 12
  day_range : 1 ≤ day ∧ day ≤ daysInMonth year month
  hour_lt : hour < 24
  minute_lt : minute < 60
  second_lt : second < 60
  micro_lt : micro < 1000000
  deriving Repr, DecidableEq

namespace DateTime

/-- The start of the store's clock, 2024-01-01 at midnight. It stands for the current time,
which a competition takes when it is built and when it is read without one. -/
def clockStart : DateTime :=
  ⟨2024, 1, 1, 0, 0, 0, 0, by decide, by decide, by decide, by decide, by decide, by decide,
    by decide⟩

instance : Inhabited DateTime := ⟨clockStart⟩

/-- A number written with at least `width` digits. -/
def padded (width n : Nat) : String :=
  let s := toString n
  String.ofList (List.replicate (width - s.length) '0') ++ s

/-- The ISO form of a date and time given by its fields. -/
def isoText (year month day hour minute second micro : Nat) : String :=
  padded 4 year ++ "-" ++ padded 2 month ++ "-" ++ padded 2 day ++ "T" ++ padded 2 hour ++ ":" ++
    padded 2 minute ++ ":" ++ padded 2 second ++
    (if micro = 0 then "" else "." ++ padded 6 micro)

/-- The ISO form of a date and time. -/
def iso (d : DateTime) : String :=
  isoText d.year d.month d.day d.hour d.minute d.second d.micro

/-- The number written by the first `n` characters, all decimal digits, and the characters
after them. -/
def takeDigits (n : Nat) (cs : List Char) : Option (Nat × List Char) :=
  if (cs.take n).length = n ∧ (cs.take n).all Char.isDigit then
    some (Nat.ofDigitChars 10 (cs.take n) 0, cs.drop n)
  else none

/-- The characters after a first character `c`. -/
def takeChar (c : Char) : List Char → Option (List Char)
  | d :: rest => if d = c then some rest else none
  | [] => none

/-- The microseconds after the seconds: none written, or a dot and six digits. -/
def microsOf : List Char → Option Nat
  | [] => some 0
  | '.' :: ds => if ds.length = 6 then (takeDigits 6 ds).map (·.1) else none
  | _ => none

/-- The date and time of an ISO form; none for a text of another form or a field out of
range. -/
def ofIso? (t : String) : Option DateTime := do
  let (year, r) ← takeDigits 4 t.toList
  let r ← takeChar '-' r
  let (month, r) ← takeDigits 2 r
  let r ← takeChar '-' r
  let (day, r) ← takeDigits 2 r
  let r ← takeChar 'T' r
  let (hour, r) ← takeDigits 2 r
  let r ← takeChar ':' r
  let (minute, r) ← takeDigits 2 r
  let r ← takeChar ':' r
  let (second, r) ← takeDigits 2 r
  let micro ← microsOf r
  if h : (1 ≤ year ∧ year ≤ 9999) ∧ (1 ≤ month ∧ month ≤ 12) ∧
      (1 ≤ day ∧ day ≤ daysInMonth year month) ∧ hour < 24 ∧ minute < 60 ∧ second < 60 ∧
      micro < 1000000 then
    some ⟨year, month, day, hour, minute, second, micro, h.1, h.2.1, h.2.2.1, h.2.2.2.1,
      h.2.2.2.2.1, h.2.2.2.2.2.1, h.2.2.2.2.2.2⟩
  else none

end DateTime

end TournamentDraw
