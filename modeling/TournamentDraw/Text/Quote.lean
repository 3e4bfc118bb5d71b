import TournamentDraw.Text.Printable
import TournamentDraw.Text.CodePoint

/-!
# Quoted texts

Messages show a text inside quotes: single quotes, or double quotes when the text holds a
single quote and no double quote. A backslash, the chosen quote, tab, line feed and carriage
return are escaped by a backslash; any other code point that does not print, lone surrogates
included, is written as a hexadecimal escape of two, four or eight digits.
-/

namespace TournamentDraw.Text

/-- The lowercase hexadecimal digits of `n`, padded with zeros to `width`. -/
def hexPadded (width n : Nat) : String :=
  let ds := Nat.toDigits 16 n
  String.ofList (List.replicate (width - ds.length) '0' ++ ds)

/-- The escaped form of one code point inside a text quoted by `q`. -/
def escapePoint (q : Char) (n : Nat) : String :=
  if n == '\\'.toNat then "\\\\"
  else if n == q.toNat then "\\" ++ q.toString
  else if n == '\t'.toNat then "\\t"
  else if n == '\n'.toNat then "\\n"
  else if n == '\r'.toNat then "\\r"
  else if printablePoint n then (Char.ofNat n).toString
  else if n < 0x100 then "\\x" ++ hexPadded 2 n
  else if n < 0x10000 then "\\u" ++ hexPadded 4 n
  else "\\U" ++ hexPadded 8 n

/-- A text in quotes, escaped as the module doc says. -/
def quote (s : String) : String :=
  let q := if s.contains '\'' && !s.contains '"' then '"' else '\''
  q.toString ++ String.join ((codePoints s).map (escapePoint q)) ++ q.toString

end TournamentDraw.Text
