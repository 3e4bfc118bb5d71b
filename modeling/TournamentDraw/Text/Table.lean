/-!
# Character tables written as hexadecimal text

Tables of Unicode properties are kept as lines of text: entries separated by spaces, numbers in
lowercase hexadecimal, a minus sign before a negative one. A range is written `a-b`, or `a`
when it holds one code point. Reading such a text is total: a malformed entry reads as zero.
Each table is read once, where it is defined.
-/

namespace TournamentDraw.Text

/-- The value of a lowercase hexadecimal digit. -/
def hexDigit (c : Char) : Nat :=
  if c.isDigit then c.toNat - '0'.toNat else c.toNat - 'a'.toNat + 10

/-- A number written in lowercase hexadecimal. -/
def hexNat (s : String) : Nat :=
  s.foldl (fun acc c => 16 * acc + hexDigit c) 0

/-- A number written in lowercase hexadecimal, with a minus sign when it is negative. -/
def hexInt (s : String) : Int :=
  if s.startsWith "-" then -((hexNat (s.drop 1).toString : Nat) : Int) else hexNat s

/-- The entries of a table: the words between spaces on its lines. -/
def tableEntries (lines : List String) : List String :=
  lines.flatMap fun l => (l.splitOn " ").filter (!·.isEmpty)

/-- A range of code points, `a-b` or `a`. -/
def readRange (e : String) : Nat × Nat :=
  match e.splitOn "-" with
  | [a, b] => (hexNat a, hexNat b)
  | _ => (hexNat e, hexNat e)

/-- A table of ranges. -/
def readRanges (lines : List String) : List (Nat × Nat) :=
  (tableEntries lines).map readRange

/-- Whether a code point lies in one of the ranges. -/
def inRanges (rs : List (Nat × Nat)) (n : Nat) : Bool :=
  rs.any fun r => r.1 ≤ n && n ≤ r.2

end TournamentDraw.Text
