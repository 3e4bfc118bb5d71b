/-!
# A place in a YAML text

A YAML text is read one character at a time. A cursor holds the characters, the index of the
next one, and its line and column. A line feed, a next-line character (`U+0085`) and the line
and paragraph separators end a line, and so does a carriage return not followed by a line
feed; a byte order mark takes no column. Past its end the text reads as NUL characters, which
it cannot hold itself: such a text is refused before it is read.
-/

namespace TournamentDraw.Yaml

/-- A place in a text: the index, line and column of the next character. -/
structure Cursor where
  chars : Array Char
  index : Nat
  line : Nat
  column : Nat
  deriving Repr

namespace Cursor

/-- The start of a text. -/
def start (chars : Array Char) : Cursor := ⟨chars, 0, 0, 0⟩

/-- The character `k` places ahead, NUL past the end. -/
def peekAt (c : Cursor) (k : Nat) : Char :=
  c.chars[c.index + k]?.getD '\x00'

/-- The next character, NUL past the end. -/
def peek (c : Cursor) : Char :=
  c.peekAt 0

/-- The number of characters left, past which the text reads as NUL. -/
def left (c : Cursor) : Nat :=
  c.chars.size - c.index

/-- Past one character. -/
def step (c : Cursor) : Cursor :=
  let ch := c.peek
  if ch == '\n' || ch == '\x85' || ch == '\u2028' || ch == '\u2029' ||
      (ch == '\r' && c.peekAt 1 != '\n') then
    { c with index := c.index + 1, line := c.line + 1, column := 0 }
  else if ch == '\uFEFF' then { c with index := c.index + 1 }
  else { c with index := c.index + 1, column := c.column + 1 }

/-- Past `n` characters. -/
def forward (c : Cursor) : Nat → Cursor
  | 0 => c
  | n + 1 => c.step.forward n

/-- The next `n` characters. -/
def ahead (c : Cursor) (n : Nat) : String :=
  String.ofList ((List.range n).map c.peekAt)

/-- How many of the next characters satisfy `p`; the count stops at the end of the text. -/
def count (c : Cursor) (p : Char → Bool) : Nat :=
  let rec go : Nat → Nat → Nat
    | 0, k => k
    | fuel + 1, k => if p (c.peekAt k) then go fuel (k + 1) else k
  go (c.left + 1) 0

/-- Past the spaces ahead. -/
def skipSpaces (c : Cursor) : Cursor :=
  c.forward (c.count (· == ' '))

end Cursor

/-- The characters that break a line. -/
def isBreak (ch : Char) : Bool :=
  ch == '\r' || ch == '\n' || ch == '\x85' || ch == '\u2028' || ch == '\u2029'

/-- A line break or the end of the text. -/
def isBreakOrEnd (ch : Char) : Bool :=
  ch == '\x00' || isBreak ch

/-- A blank, a line break or the end of the text. -/
def isBlankOrEnd (ch : Char) : Bool :=
  ch == ' ' || ch == '\t' || isBreakOrEnd ch

/-- A space, a line break or the end of the text (a tab not included). -/
def isSpaceOrEnd (ch : Char) : Bool :=
  ch == ' ' || isBreakOrEnd ch

/-- Past a line break, if one comes next, with the break it stands for: a line feed for a
carriage return, a line feed, both together or a next-line character; a line or paragraph
separator for itself; nothing when no break comes. -/
def Cursor.lineBreak (c : Cursor) : String × Cursor :=
  let ch := c.peek
  if ch == '\r' || ch == '\n' || ch == '\x85' then
    if ch == '\r' && c.peekAt 1 == '\n' then ("\n", c.forward 2) else ("\n", c.step)
  else if ch == '\u2028' || ch == '\u2029' then (ch.toString, c.step)
  else ("", c)

/-- Whether a document marker, `---` or `...` followed by a blank or the end, comes next. -/
def Cursor.atDocumentMarker (c : Cursor) : Bool :=
  let p := c.ahead 3
  (p == "---" || p == "...") && isBlankOrEnd (c.peekAt 3)

end TournamentDraw.Yaml
