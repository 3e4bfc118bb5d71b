import TournamentDraw.Yaml.Cursor
import TournamentDraw.Yaml.Fault
import TournamentDraw.Text.CodePoint

/-!
# Scanning scalars

The three ways of writing a scalar, each read from a cursor to the text it stands for.

* A plain scalar runs until a blank, a `: ` or a comment, and in a flow collection until a
  flow indicator; it may go on over lines indented past the enclosing block. Line breaks
  fold: one becomes a space, and each further empty line a line feed.
* A quoted scalar runs to its closing quote. In single quotes `''` is a quote; in double
  quotes a backslash starts an escape: a letter for a control character, `x`, `u` or `U`
  with two, four or eight hexadecimal digits for a code point, or a line break that is
  dropped with the blanks around it. Line breaks fold as in a plain scalar, and a document
  marker at the start of a line is refused.
* A block scalar (`|` literal, `>` folded) holds the lines indented at least as its first
  non-empty line, or as its indentation indicator says. Its last line break is kept (clip),
  dropped (`-`, strip) or kept with the empty lines after it (`+`, keep). A folded scalar
  joins two lines that both start with a non-blank by a space.

Every loop here takes at least one character per round, so the number of characters left
bounds it.
-/

namespace TournamentDraw.Yaml

/-! ## Plain scalars -/

/-- Whether the character `k` places ahead ends a run of a plain scalar. -/
def plainStop (c : Cursor) (flow : Bool) (k : Nat) : Bool :=
  let ch := c.peekAt k
  isBlankOrEnd ch ||
    (ch == ':' && (isBlankOrEnd (c.peekAt (k + 1)) || (flow && ",[]\x7b\x7d".contains (c.peekAt (k + 1))))) ||
    (flow && ",?[]\x7b\x7d".contains ch)

/-- The length of the run of a plain scalar ahead. -/
def plainRun (c : Cursor) (flow : Bool) : Nat :=
  let rec go : Nat → Nat → Nat
    | 0, k => k
    | fuel + 1, k => if plainStop c flow k then k else go fuel (k + 1)
  go (c.left + 1) 0

/-- Past the spaces and empty lines after a line break, with the breaks met; `true` when a
document marker starts a line. -/
def foldedBreaks : Nat → Cursor → List String → Cursor × List String × Bool
  | 0, c, bs => (c, bs, false)
  | fuel + 1, c, bs =>
    if c.peek == ' ' then foldedBreaks fuel c.step bs
    else if isBreak c.peek then
      let (b, c) := c.lineBreak
      if c.atDocumentMarker then (c, bs, true) else foldedBreaks fuel c (bs ++ [b])
    else (c, bs, false)

/-- The blanks between two runs of a plain scalar: what they fold to (nothing ends the
scalar), the place after them, and whether a line break was passed. -/
def plainSpaces (c : Cursor) : List String × Cursor × Bool :=
  let n := c.count (· == ' ')
  let ws := c.ahead n
  let c := c.forward n
  if isBreak c.peek then
    let (lb, c) := c.lineBreak
    if c.atDocumentMarker then ([], c, true) else
      let (c, bs, marker) := foldedBreaks (c.left + 1) c []
      if marker then ([], c, true) else
        let first := if lb != "\n" then [lb] else if bs.isEmpty then [" "] else []
        (first ++ bs, c, true)
  else ((if ws.isEmpty then [] else [ws]), c, false)

/-- A plain scalar at the cursor, in a block indented at `indent` (or in a flow collection):
its text, the place after it, and whether a simple key may follow (a line break ended it). -/
def scanPlain (c : Cursor) (indent : Int) (flow : Bool) : String × Cursor × Bool :=
  let rec go : Nat → Cursor → List String → List String → Bool → String × Cursor × Bool
    | 0, c, chunks, _, allow => (String.join chunks, c, allow)
    | fuel + 1, c, chunks, spaces, allow =>
      let n := plainRun c flow
      if c.peek == '#' || n == 0 then (String.join chunks, c, allow) else
        let chunks := chunks ++ spaces ++ [c.ahead n]
        let (more, c, broke) := plainSpaces (c.forward n)
        let allow := broke
        if more.isEmpty || c.peek == '#' || (!flow && (c.column : Int) < indent + 1) then
          (String.join chunks, c, allow)
        else go fuel c chunks more allow
  go (c.left + 1) c [] [] false

/-! ## Quoted scalars -/

/-- The character an escape letter stands for, in a double-quoted scalar. -/
def escapeOf? (ch : Char) : Option Char :=
  match ch with
  | '0' => some '\x00'
  | 'a' => some '\x07'
  | 'b' => some '\x08'
  | 't' | '\t' => some '\t'
  | 'n' => some '\n'
  | 'v' => some '\x0b'
  | 'f' => some '\x0c'
  | 'r' => some '\r'
  | 'e' => some '\x1b'
  | ' ' => some ' '
  | '"' => some '"'
  | '\\' => some '\\'
  | '/' => some '/'
  | 'N' => some '\x85'
  | '_' => some '\xa0'
  | 'L' => some ' '
  | 'P' => some ' '
  | _ => none

/-- The number of hexadecimal digits after an escape letter for a code point. -/
def escapeWidth? (ch : Char) : Option Nat :=
  match ch with
  | 'x' => some 2
  | 'u' => some 4
  | 'U' => some 8
  | _ => none

/-- Whether a character is a hexadecimal digit. -/
def isHexDigit (ch : Char) : Bool :=
  ('0' ≤ ch && ch ≤ '9') || ('a' ≤ ch && ch ≤ 'f') || ('A' ≤ ch && ch ≤ 'F')

/-- The value of a hexadecimal digit. -/
def hexValue (ch : Char) : Nat :=
  if ch ≤ '9' then ch.toNat - '0'.toNat
  else if ch ≤ 'F' then ch.toNat - 'A'.toNat + 10
  else ch.toNat - 'a'.toNat + 10

/-- Past the blanks and line breaks inside a quoted scalar, with the breaks met; a document
marker at the start of a line is refused. -/
def quotedBreaks : Nat → Cursor → List String → Except LoadFault (Cursor × List String)
  | 0, c, bs => .ok (c, bs)
  | fuel + 1, c, bs =>
    if c.atDocumentMarker then .error .malformed else
      let c := c.forward (c.count fun ch => ch == ' ' || ch == '\t')
      if isBreak c.peek then
        let (b, c) := c.lineBreak
        quotedBreaks fuel c (bs ++ [b])
      else .ok (c, bs)

/-- The text of a run of a quoted scalar up to its next blank, line break or closing quote. -/
def quotedRun (double : Bool) : Nat → Cursor → List String → Except LoadFault (Cursor × List String)
  | 0, c, chunks => .ok (c, chunks)
  | fuel + 1, c, chunks =>
    let n := c.count fun ch => !("'\"\\".contains ch || isBlankOrEnd ch)
    let chunks := if n == 0 then chunks else chunks ++ [c.ahead n]
    let c := c.forward n
    let ch := c.peek
    if !double && ch == '\'' && c.peekAt 1 == '\'' then quotedRun double fuel (c.forward 2) (chunks ++ ["'"])
    else if (double && ch == '\'') || (!double && (ch == '"' || ch == '\\')) then
      quotedRun double fuel c.step (chunks ++ [ch.toString])
    else if double && ch == '\\' then
      let c := c.step
      let e := c.peek
      match escapeOf? e, escapeWidth? e with
      | some r, _ => quotedRun double fuel c.step (chunks ++ [r.toString])
      | none, some w =>
        let c := c.step
        if !((List.range w).all fun k => isHexDigit (c.peekAt k)) then .error .malformed else
          let code := (List.range w).foldl (fun acc k => 16 * acc + hexValue (c.peekAt k)) 0
          if 0x10FFFF < code then .error .pointRange else
            quotedRun double fuel (c.forward w) (chunks ++ [Text.ofCodePoints [code]])
      | none, none =>
        if isBreak e then do
          let (c, bs) ← quotedBreaks (c.left + 1) c.lineBreak.2 []
          quotedRun double fuel c (chunks ++ bs)
        else .error .malformed
    else .ok (c, chunks)

/-- The blanks inside a quoted scalar and what they fold to; the end of the text is refused. -/
def quotedSpaces (c : Cursor) : Except LoadFault (Cursor × List String) :=
  let n := c.count fun ch => ch == ' ' || ch == '\t'
  let ws := c.ahead n
  let c := c.forward n
  if c.peek == '\x00' then .error .malformed
  else if isBreak c.peek then do
    let (lb, c) := c.lineBreak
    let (c, bs) ← quotedBreaks (c.left + 1) c []
    let first := if lb != "\n" then [lb] else if bs.isEmpty then [" "] else []
    .ok (c, first ++ bs)
  else .ok (c, [ws])

/-- A quoted scalar at the cursor, which stands on its opening quote: its text and the place
after the closing quote. -/
def scanQuoted (c : Cursor) (double : Bool) : Except LoadFault (String × Cursor) := do
  let quote := c.peek
  let (c, chunks) ← quotedRun double (c.left + 1) c.step []
  let rec go : Nat → Cursor → List String → Except LoadFault (String × Cursor)
    | 0, c, chunks => .ok (String.join chunks, c)
    | fuel + 1, c, chunks =>
      if c.peek == quote then .ok (String.join chunks, c.step) else do
        let (c, sp) ← quotedSpaces c
        let (c, more) ← quotedRun double (c.left + 1) c []
        go fuel c (chunks ++ sp ++ more)
  go (c.left + 1) c chunks

/-! ## Block scalars -/

/-- How a block scalar ends: its last line break kept (`none`), dropped (`some false`), or
kept with the empty lines after it (`some true`). -/
abbrev Chomping := Option Bool

/-- The chomping and indentation indicators of a block scalar, in either order, and the place
after them; an indentation of 0, or anything but a space or line break after them, is refused. -/
def blockIndicators (c : Cursor) : Except LoadFault (Chomping × Option Nat × Cursor) := do
  let digit? (ch : Char) : Option Nat := if '0' ≤ ch && ch ≤ '9' then some (ch.toNat - 48) else none
  let (chomp, inc, c) ← match c.peek with
    | '+' | '-' =>
      let chomp := some (c.peek == '+')
      let c := c.step
      match digit? c.peek with
      | some 0 => .error .malformed
      | some d => pure (chomp, some d, c.step)
      | none => pure (chomp, none, c)
    | ch =>
      match digit? ch with
      | some 0 => .error .malformed
      | some d =>
        let c := c.step
        if c.peek == '+' || c.peek == '-' then pure (some (c.peek == '+'), some d, c.step)
        else pure (none, some d, c)
      | none => pure (none, none, c)
  if !isSpaceOrEnd c.peek then .error .malformed
  return (chomp, inc, c)

/-- Past the rest of a header line: spaces and a comment, then the line break. -/
def ignoredLine (c : Cursor) : Except LoadFault Cursor :=
  let c := c.skipSpaces
  let c := if c.peek == '#' then c.forward (c.count fun ch => !isBreakOrEnd ch) else c
  if isBreakOrEnd c.peek then .ok c.lineBreak.2 else .error .malformed

/-- Past the empty lines before the first line of a block scalar: the breaks met and the
greatest column reached. -/
def leadingBreaks : Nat → Cursor → List String → Nat → List String × Nat × Cursor
  | 0, c, bs, m => (bs, m, c)
  | fuel + 1, c, bs, m =>
    if c.peek == ' ' then
      let c := c.step
      leadingBreaks fuel c bs (max m c.column)
    else if isBreak c.peek then
      let (b, c) := c.lineBreak
      leadingBreaks fuel c (bs ++ [b]) m
    else (bs, m, c)

/-- Past up to `indent` columns of spaces. -/
def toIndent (indent : Nat) (c : Cursor) : Cursor :=
  let rec go : Nat → Cursor → Cursor
    | 0, c => c
    | fuel + 1, c => if c.column < indent && c.peek == ' ' then go fuel c.step else c
  go (c.left + 1) c

/-- Past the empty lines inside a block scalar indented at `indent`, with the breaks met. -/
def blockBreaks (indent : Nat) (c : Cursor) : List String × Cursor :=
  let rec go : Nat → Cursor → List String → List String × Cursor
    | 0, c, bs => (bs, c)
    | fuel + 1, c, bs =>
      if isBreak c.peek then
        let (b, c) := c.lineBreak
        go fuel (toIndent indent c) (bs ++ [b])
      else (bs, c)
  go (c.left + 1) (toIndent indent c) []

/-- The lines of a block scalar indented at `indent`, from its first line: the text so far,
the last line break and the empty lines after the last line. -/
def blockLines (folded : Bool) (indent : Nat) :
    Nat → Cursor → List String → List String → List String × String × List String × Cursor
  | 0, c, chunks, breaks => (chunks, "", breaks, c)
  | fuel + 1, c, chunks, breaks =>
    if c.column != indent || c.peek == '\x00' then (chunks, "", breaks, c) else
      let chunks := chunks ++ breaks
      let leadingNonSpace := !(c.peek == ' ' || c.peek == '\t')
      let n := c.count fun ch => !isBreakOrEnd ch
      let chunks := chunks ++ [c.ahead n]
      let (lb, c) := (c.forward n).lineBreak
      let (breaks, c) := blockBreaks indent c
      if c.column == indent && c.peek != '\x00' then
        let joint :=
          if folded && lb == "\n" && leadingNonSpace && !(c.peek == ' ' || c.peek == '\t') then
            if breaks.isEmpty then [" "] else []
          else [lb]
        blockLines folded indent fuel c (chunks ++ joint) breaks
      else (chunks, lb, breaks, c)

/-- A block scalar at the cursor, which stands on its indicator (`|` or `>`), inside a block
indented at `indent`: its text and the place after it. -/
def scanBlock (c : Cursor) (folded : Bool) (indent : Int) : Except LoadFault (String × Cursor) := do
  let (chomp, inc, c) ← blockIndicators c.step
  let c ← ignoredLine c
  let least : Nat := max 1 (indent + 1).toNat
  let (ind, breaks, c) := match inc with
    | none =>
      let (bs, m, c) := leadingBreaks (c.left + 1) c [] 0
      (max least m, bs, c)
    | some d =>
      let ind := least + d - 1
      let (bs, c) := blockBreaks ind c
      (ind, bs, c)
  let (chunks, lb, breaks, c) := blockLines folded ind (c.left + 1) c [] breaks
  let tail := match chomp with
    | some false => []
    | some true => [lb] ++ breaks
    | none => [lb]
  return (String.join (chunks ++ tail), c)

end TournamentDraw.Yaml
