import TournamentDraw.Yaml.Node.Compose
import TournamentDraw.Yaml.Datum.Build

/-!
# Loading a YAML text

A YAML file is read as text with its line breaks unified: a carriage return, alone or before
a line feed, becomes a line feed. Its characters must be printable: tab, line feed, carriage
return, the printable ASCII characters, the next-line character, and the code points from
`U+00A0` on, except the surrogates, `U+FFFE` and `U+FFFF`. The text then holds at most one
document, whose value is built; an empty text, or one of comments only, holds none.
-/

namespace TournamentDraw.Yaml

/-- Whether a character may stand in a YAML text. -/
def printableChar (c : Char) : Bool :=
  let n := c.toNat
  n == 0x09 || n == 0x0A || n == 0x0D || (0x20 ≤ n && n ≤ 0x7E) || n == 0x85 ||
    (0xA0 ≤ n && n ≤ 0xD7FF) || (0xE000 ≤ n && n ≤ 0xFFFD) || 0x10000 ≤ n

/-- The characters of a text with its line breaks unified to line feeds. -/
def unifyBreaks : List Char → List Char
  | '\r' :: '\n' :: rest => '\n' :: unifyBreaks rest
  | '\r' :: rest => '\n' :: unifyBreaks rest
  | c :: rest => c :: unifyBreaks rest
  | [] => []

/-- The value of a YAML text, `none` when it holds no document. -/
def load (text : String) : Except LoadFault (Option Datum) := do
  let cs := unifyBreaks text.toList
  if !cs.all printableChar then throw .malformed
  match ← readDocument cs.toArray with
  | none => return none
  | some d => return some (← d.value)

end TournamentDraw.Yaml
