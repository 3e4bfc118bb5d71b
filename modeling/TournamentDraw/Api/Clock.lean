import TournamentDraw.DateTime

/-!
# Row times

The store's clock ticks once for every row it inserts. A row's creation time is shown as an
instant: its tick counted in microseconds after the start of 2024, in UTC, written as
`YYYY-MM-DDTHH:MM:SS` with six digits of microseconds when there are any. Dates follow the
proleptic Gregorian calendar, counted in eras of 400 years that start on the first of March.
-/

namespace TournamentDraw.Api

/-- The year, month and day of a day counted from 1970-01-01. -/
def civilDate (days : Nat) : Nat × Nat × Nat :=
  let z := days + 719468
  let era := z / 146097
  let doe := z - era * 146097
  let yoe := (doe - doe / 1460 + doe / 36524 - doe / 146096) / 365
  let doy := doe - (365 * yoe + yoe / 4 - yoe / 100)
  let mp := (5 * doy + 2) / 153
  let day := doy - (153 * mp + 2) / 5 + 1
  let month := if mp < 10 then mp + 3 else mp - 9
  let year := yoe + era * 400
  (if month ≤ 2 then year + 1 else year, month, day)

/-- The days from 1970-01-01 to 2024-01-01. -/
def clockStartDay : Nat := 19723

/-- The instant of a tick of the store's clock. -/
def instantText (tick : Nat) : String :=
  let micros := tick % 1000000
  let secs := tick / 1000000
  let (y, m, d) := civilDate (clockStartDay + secs / 86400)
  let t := secs % 86400
  DateTime.isoText y m d (t / 3600) (t / 60 % 60) (t % 60) micros

end TournamentDraw.Api
