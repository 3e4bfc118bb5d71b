/-!
# Seeds

A competition or a draw is reproducible from its seed. When none is given a fresh seed is
taken from a counter, so that a run of the library is itself reproducible: competition seeds
are the word `autoseed` followed by the counter in fourteen digits (twenty-two characters of
`a-z0-9`), draw seeds are identifiers of the form `00000000-0000-4000-8000-` followed by the
counter in twelve hexadecimal digits.
-/

namespace TournamentDraw.Seed

/-- The decimal digits of `n`, padded with zeros to `width`. -/
def padded (width n : Nat) : String :=
  let ds := toString n
  String.ofList (List.replicate (width - ds.length) '0') ++ ds

/-- The lowercase hexadecimal digits of `n`, padded with zeros to `width`. -/
def paddedHex (width n : Nat) : String :=
  let ds := Nat.toDigits 16 n
  String.ofList (List.replicate (width - ds.length) '0' ++ ds)

/-- The `n`-th competition seed. -/
def competition (n : Nat) : String :=
  "autoseed" ++ padded 14 n

/-- The `n`-th draw seed. -/
def draw (n : Nat) : String :=
  "00000000-0000-4000-8000-" ++ paddedHex 12 n

/-- How many seeds of each sort have been issued. -/
structure Issued where
  competition : Nat := 0
  draw : Nat := 0
  deriving Repr, DecidableEq, Inhabited

/-- The letters a seed is written in. -/
def alphabet : List Char :=
  "abcdefghijklmnopqrstuvwxyz0123456789".toList

end TournamentDraw.Seed
