import TournamentDraw.Yaml.Token
import TournamentDraw.Yaml.Token.Scalar

/-!
# The token stream of a YAML text

Tokens are produced on demand, one step at a time. Each step skips blanks, comments and line
breaks (a line break in a block allows a simple key again), closes the block collections
indented deeper than the next character with block ends, and reads one token.

A *simple key* is a node followed by `:` on the same line, within 1024 characters. When a
token that may start one is read, its place in the stream is remembered for its flow level;
when the `:` comes, a key token is put in at that place, and in a block also the start of a
mapping if the key's column opens a deeper indentation. A remembered place that can no
longer be a key (the line ended, or 1024 characters passed) is forgotten, unless the key
was required (it stood at the block's own indentation), which is a fault. So that a key can
still be put in front of it, a token is handed out only when no remembered place is its own.

A flow level counts the open flow collections; a stray closing bracket lowers it below zero,
which still counts as being inside a flow collection.
-/

namespace TournamentDraw.Yaml

/-- A place where a simple key may start: the number its token has in the stream, whether a
key is required there, and its index, line and column in the text. -/
structure SimpleKey where
  tokenNumber : Nat
  required : Bool
  index : Nat
  line : Nat
  column : Nat
  deriving Repr

/-- The state of the token stream. -/
structure Scanner where
  cur : Cursor
  /-- Tokens read and not yet handed out. -/
  queue : List Token
  /-- How many tokens were handed out. -/
  taken : Nat
  /-- Whether the end of the stream was read. -/
  done : Bool
  flowLevel : Int
  /-- The current block indentation and the enclosing ones, innermost first. -/
  indent : Int
  indents : List Int
  allowKey : Bool
  /-- The remembered simple keys, by flow level. -/
  keys : List (Int × SimpleKey)
  deriving Repr

/-- The stream of a text before its first token is handed out. -/
def Scanner.begin (chars : Array Char) : Scanner :=
  { cur := Cursor.start chars, queue := [.streamStart], taken := 0, done := false,
    flowLevel := 0, indent := -1, indents := [], allowKey := true, keys := [] }

/-- Reading tokens, with the stream's state, until a fault. -/
abbrev Scan := StateT Scanner (Except LoadFault)

/-- Whether the stream is inside a flow collection. -/
def Scanner.inFlow (s : Scanner) : Bool := s.flowLevel != 0

/-- The close of every block collection indented deeper than `column`: the indentation left,
the enclosing ones, and the number of block ends. -/
def closeIndents (column : Int) : Int → List Int → Nat → Int × List Int × Nat
  | ind, i :: is, n => if column < ind then closeIndents column i is (n + 1) else (ind, i :: is, n)
  | ind, [], n => (ind, [], n)

namespace Scan

/-- Put a token at the end of the queue. -/
def push (t : Token) : Scan Unit :=
  modify fun s => { s with queue := s.queue ++ [t] }

/-- Move the cursor. -/
def moveTo (c : Cursor) : Scan Unit :=
  modify fun s => { s with cur := c }

/-- Allow or forbid a simple key next. -/
def allow (b : Bool) : Scan Unit :=
  modify fun s => { s with allowKey := b }

/-- Forget the remembered keys that can no longer be keys; a required one is a fault. -/
def staleKeys : Scan Unit := do
  let s ← get
  let stale (k : SimpleKey) : Bool := k.line != s.cur.line || s.cur.index - k.index > 1024
  if s.keys.any fun (_, k) => stale k && k.required then throw .malformed
  set { s with keys := s.keys.filter fun (_, k) => !stale k }

/-- Forget the remembered key of the current flow level; a required one is a fault. -/
def removeKey : Scan Unit := do
  let s ← get
  match s.keys.lookup s.flowLevel with
  | some k =>
    if k.required then throw .malformed
    set { s with keys := s.keys.filter fun (p : Int × SimpleKey) => p.1 != s.flowLevel }
  | none => pure ()

/-- Remember that the next token may start a simple key, if a key is allowed here. -/
def saveKey : Scan Unit := do
  let s ← get
  let required := !s.inFlow && s.indent == s.cur.column
  if s.allowKey then
    removeKey
    let s ← get
    let k : SimpleKey := ⟨s.taken + s.queue.length, required, s.cur.index, s.cur.line, s.cur.column⟩
    set { s with keys := (s.keys.filter fun (p : Int × SimpleKey) => p.1 != s.flowLevel) ++ [(s.flowLevel, k)] }

/-- Close the block collections indented deeper than `column`. -/
def unwindIndent (column : Int) : Scan Unit := do
  let s ← get
  if !s.inFlow then
    let (ind, inds, n) := closeIndents column s.indent s.indents 0
    set { s with indent := ind, indents := inds, queue := s.queue ++ List.replicate n Token.blockEnd }

/-- Open a deeper indentation at `column`, if it is deeper; whether it was. -/
def addIndent (column : Int) : Scan Bool := do
  let s ← get
  if s.indent < column then
    set { s with indent := column, indents := s.indent :: s.indents }
    return true
  else return false

/-- Past blanks, comments and line breaks up to the next token; a byte order mark at the very
start is skipped. -/
def skipToToken : Scan Unit := do
  let s ← get
  let c := if s.cur.index == 0 && s.cur.peek == '\uFEFF' then s.cur.step else s.cur
  let rec go : Nat → Cursor → Bool → Cursor × Bool
    | 0, c, broke => (c, broke)
    | fuel + 1, c, broke =>
      let c := c.skipSpaces
      let c := if c.peek == '#' then c.forward (c.count fun ch => !isBreakOrEnd ch) else c
      let (b, c') := c.lineBreak
      if b.isEmpty then (c, broke) else go fuel c' true
  let (c, broke) := go (c.left + 1) c false
  set { s with cur := c, allowKey := if broke && !s.inFlow then true else s.allowKey }

end Scan

/-- Whether a character may stand in an anchor name or a directive name. -/
def isNameChar (ch : Char) : Bool :=
  ('0' ≤ ch && ch ≤ '9') || ('A' ≤ ch && ch ≤ 'Z') || ('a' ≤ ch && ch ≤ 'z') || ch == '-' ||
    ch == '_'

/-- Whether a character may stand in a tag's URI. -/
def isUriChar (ch : Char) : Bool :=
  ('0' ≤ ch && ch ≤ '9') || ('A' ≤ ch && ch ≤ 'Z') || ('a' ≤ ch && ch ≤ 'z') ||
    "-;/?:@&=+$,_.!~*'()[]%".contains ch

/-- The code point of a strict UTF-8 sequence at the front of some bytes, with the bytes
after it: no overlong form, no surrogate, nothing past `U+10FFFF`. -/
def utf8Point? : List Nat → Option (Nat × List Nat)
  | b :: rest =>
    let trail (k : Nat) (bs : List Nat) : Option (Nat × List Nat) :=
      if bs.length < k || !((bs.take k).all fun t => 0x80 ≤ t && t < 0xC0) then none
      else some ((bs.take k).foldl (fun acc t => 64 * acc + (t - 0x80)) 0, bs.drop k)
    if b < 0x80 then some (b, rest)
    else if 0xC2 ≤ b && b < 0xE0 then (trail 1 rest).map fun (v, r) => ((b - 0xC0) * 64 + v, r)
    else if 0xE0 ≤ b && b < 0xF0 then
      (trail 2 rest).bind fun (v, r) =>
        let n := (b - 0xE0) * 4096 + v
        if n < 0x800 || (0xD800 ≤ n && n ≤ 0xDFFF) then none else some (n, r)
    else if 0xF0 ≤ b && b < 0xF5 then
      (trail 3 rest).bind fun (v, r) =>
        let n := (b - 0xF0) * 262144 + v
        if n < 0x10000 || 0x10FFFF < n then none else some (n, r)
    else none
  | [] => none

/-- The text of some bytes in strict UTF-8, if they are that. -/
def utf8Text? (bs : List Nat) : Option String :=
  let rec go : Nat → List Nat → List Nat → Option String
    | 0, _, acc => some (Text.ofCodePoints acc.reverse)
    | fuel + 1, bs, acc =>
      if bs.isEmpty then some (Text.ofCodePoints acc.reverse) else
        match utf8Point? bs with
        | some (n, rest) => go fuel rest (n :: acc)
        | none => none
  go (bs.length + 1) bs []

/-- Past `%XX` escapes in a tag's URI, with the text their bytes spell in UTF-8. -/
def uriEscapes (c : Cursor) : Except LoadFault (String × Cursor) :=
  let rec go : Nat → Cursor → List Nat → Except LoadFault (List Nat × Cursor)
    | 0, c, bs => .ok (bs, c)
    | fuel + 1, c, bs =>
      if c.peek != '%' then .ok (bs, c) else
        let c := c.step
        if !(isHexDigit (c.peekAt 0) && isHexDigit (c.peekAt 1)) then .error .malformed
        else go fuel (c.forward 2) (bs ++ [16 * hexValue (c.peekAt 0) + hexValue (c.peekAt 1)])
  match go (c.left + 1) c [] with
  | .error e => .error e
  | .ok (bs, c) =>
    match utf8Text? bs with
    | some t => .ok (t, c)
    | none => .error .malformed

/-- The URI of a tag: its characters, with `%XX` escapes decoded; an empty one is refused. -/
def scanTagUri (c : Cursor) : Except LoadFault (String × Cursor) :=
  let rec go : Nat → Cursor → List String → Except LoadFault (List String × Cursor)
    | 0, c, chunks => .ok (chunks, c)
    | fuel + 1, c, chunks =>
      let n := c.count fun ch => isUriChar ch && ch != '%'
      let chunks := if n == 0 then chunks else chunks ++ [c.ahead n]
      let c := c.forward n
      if c.peek == '%' then
        match uriEscapes c with
        | .ok (t, c) => go fuel c (chunks ++ [t])
        | .error e => .error e
      else .ok (chunks, c)
  match go (c.left + 1) c [] with
  | .ok ([], _) => .error .malformed
  | .ok (chunks, c) => .ok (String.join chunks, c)
  | .error e => .error e

/-- A tag handle, `!`, `!!` or `!name!`. -/
def scanTagHandle (c : Cursor) : Except LoadFault (String × Cursor) :=
  if c.peek != '!' then .error .malformed
  else if c.peekAt 1 == ' ' then .ok ("!", c.step)
  else
    let n := 1 + (c.step.count isNameChar)
    if c.peekAt n != '!' then .error .malformed else .ok (c.ahead (n + 1), c.forward (n + 1))

/-- A tag at the cursor, which stands on its `!`: verbatim `!<uri>`, the lone `!`, or a
handle and a suffix. -/
def scanTag (c : Cursor) : Except LoadFault (Token × Cursor) := do
  let (tok, c) ← if c.peekAt 1 == '<' then do
      let (suffix, c) ← scanTagUri (c.forward 2)
      if c.peek != '>' then throw .malformed
      pure (Token.tag none suffix, c.step)
    else if isBlankOrEnd (c.peekAt 1) then pure (Token.tag none "!", c.step)
    else do
      let n := c.step.count fun ch => !isSpaceOrEnd ch && ch != '!'
      let (handle, c) ← if c.peekAt (n + 1) == '!' then scanTagHandle c else pure ("!", c.step)
      let (suffix, c) ← scanTagUri c
      pure (Token.tag (some handle) suffix, c)
  if !isSpaceOrEnd c.peek then throw .malformed
  return (tok, c)

/-- An anchor `&name` or an alias `*name` at the cursor. -/
def scanAnchor (c : Cursor) (isAlias : Bool) : Except LoadFault (Token × Cursor) :=
  let c := c.step
  let n := c.count isNameChar
  if n == 0 then .error .malformed else
    let name := c.ahead n
    let c := c.forward n
    if !(isBlankOrEnd c.peek || "?:,]\x7d%@\x60".contains c.peek) then .error .malformed
    else .ok ((if isAlias then Token.alias name else Token.anchor name), c)

/-- The digits of a version number in a directive. -/
def versionNumber (c : Cursor) : Except LoadFault (Nat × Cursor) :=
  let n := c.count fun ch => '0' ≤ ch && ch ≤ '9'
  if n == 0 then .error .malformed
  else .ok ((c.ahead n).foldl (fun acc ch => 10 * acc + (ch.toNat - 48)) 0, c.forward n)

/-- A directive at the cursor, which stands on its `%`, with the rest of its line. -/
def scanDirective (c : Cursor) : Except LoadFault (Token × Cursor) := do
  let c := c.step
  let n := c.count isNameChar
  if n == 0 then throw .malformed
  let name := c.ahead n
  let c := c.forward n
  if !isSpaceOrEnd c.peek then throw .malformed
  let (value, c) ← if name == "YAML" then do
      let (major, c) ← versionNumber c.skipSpaces
      if c.peek != '.' then throw .malformed
      let (minor, c) ← versionNumber c.step
      if !isSpaceOrEnd c.peek then throw .malformed
      pure (DirectiveValue.version major minor, c)
    else if name == "TAG" then do
      let (handle, c) ← scanTagHandle c.skipSpaces
      if c.peek != ' ' then throw .malformed
      let (pfx, c) ← scanTagUri c.skipSpaces
      if !isSpaceOrEnd c.peek then throw .malformed
      pure (DirectiveValue.tagPrefix handle pfx, c)
    else pure (DirectiveValue.other, c.forward (c.count fun ch => !isBreakOrEnd ch))
  let c := c.skipSpaces
  let c := if c.peek == '#' then c.forward (c.count fun ch => !isBreakOrEnd ch) else c
  if !isBreakOrEnd c.peek then throw .malformed
  return (.directive name value, c.lineBreak.2)

namespace Scan

/-- Read a token from a scanning function at the cursor. -/
def scanWith (f : Cursor → Except LoadFault (Token × Cursor)) : Scan Unit := do
  let (t, c) ← liftM (f (← get).cur)
  moveTo c
  push t

/-- The end of the stream: every block collection closes. -/
def streamEnd : Scan Unit := do
  unwindIndent (-1)
  removeKey
  modify fun s => { s with allowKey := false, keys := [], done := true }
  push .streamEnd

/-- A directive, or the start or end marker of a document: every block collection closes. -/
def documentMark (read : Scan Unit) : Scan Unit := do
  unwindIndent (-1)
  removeKey
  allow false
  read

/-- The opening bracket of a flow collection, which may start a simple key. -/
def flowStart (t : Token) : Scan Unit := do
  saveKey
  modify fun s => { s with flowLevel := s.flowLevel + 1, allowKey := true, cur := s.cur.step }
  push t

/-- The closing bracket of a flow collection. -/
def flowEnd (t : Token) : Scan Unit := do
  removeKey
  modify fun s => { s with flowLevel := s.flowLevel - 1, allowKey := false, cur := s.cur.step }
  push t

/-- A comma between flow entries. -/
def flowEntry : Scan Unit := do
  allow true
  removeKey
  modify fun s => { s with cur := s.cur.step }
  push .flowEntry

/-- The indicator `-` or `?` of a block entry or key: in a block it must be allowed here, and
it may open a sequence or mapping at its column. -/
def blockIndicator (opening marker : Token) (allowAfter : Scanner → Bool) : Scan Unit := do
  let s ← get
  if !s.inFlow then
    if !s.allowKey then throw .malformed
    if ← addIndent s.cur.column then push opening
  let s ← get
  allow (allowAfter s)
  removeKey
  modify fun s => { s with cur := s.cur.step }
  push marker

/-- The indicator `:` of a value. The remembered simple key of this flow level, if there is
one, becomes a key token in its place (in a block also opening a mapping at its column);
otherwise the value belongs to a key written with `?`, or to none. -/
def valueIndicator : Scan Unit := do
  let s ← get
  match s.keys.lookup s.flowLevel with
  | some k =>
    let pos := k.tokenNumber - s.taken
    set { s with keys := s.keys.filter fun (p : Int × SimpleKey) => p.1 != s.flowLevel,
                 queue := s.queue.take pos ++ [Token.key] ++ s.queue.drop pos }
    if !s.inFlow then
      if ← addIndent k.column then
        modify fun s => { s with queue := s.queue.take pos ++ [Token.blockMappingStart] ++ s.queue.drop pos }
    allow false
  | none =>
    if !s.inFlow then
      if !s.allowKey then throw .malformed
      if ← addIndent s.cur.column then push .blockMappingStart
    allow (!s.inFlow)
    removeKey
  modify fun s => { s with cur := s.cur.step }
  push .value

/-- A node that may start a simple key: an alias, an anchor, a tag or a flow scalar. -/
def keyCandidate (f : Cursor → Except LoadFault (Token × Cursor)) : Scan Unit := do
  saveKey
  allow false
  scanWith f

/-- A plain scalar; a simple key may follow it only if a line break ended it. -/
def plain : Scan Unit := do
  saveKey
  allow false
  let s ← get
  let (text, c, after) := scanPlain s.cur s.indent s.inFlow
  set { s with cur := c, allowKey := after }
  push (.scalar text .plain)

/-- A block scalar, after which a simple key may follow. -/
def blockScalar (folded : Bool) : Scan Unit := do
  allow true
  removeKey
  let s ← get
  let (text, c) ← liftM (scanBlock s.cur folded s.indent)
  moveTo c
  push (.scalar text (if folded then .folded else .literal))

/-- Whether the next character starts a plain scalar. -/
def startsPlain (s : Scanner) : Bool :=
  let ch := s.cur.peek
  !(isBlankOrEnd ch || "-?:,[]\x7b\x7d#&*!|>'\"%@\x60".contains ch) ||
    (!isBlankOrEnd (s.cur.peekAt 1) && (ch == '-' || (!s.inFlow && (ch == '?' || ch == ':'))))

/-- Read the next token or tokens. -/
def fetchMore : Scan Unit := do
  skipToToken
  staleKeys
  unwindIndent (← get).cur.column
  let s ← get
  let c := s.cur
  let ch := c.peek
  let blankAfter := isBlankOrEnd (c.peekAt 1)
  if ch == '\x00' then streamEnd
  else if ch == '%' && c.column == 0 then documentMark (scanWith scanDirective)
  else if ch == '-' && c.column == 0 && c.ahead 3 == "---" && isBlankOrEnd (c.peekAt 3) then
    documentMark (do moveTo (c.forward 3); push .documentStart)
  else if ch == '.' && c.column == 0 && c.ahead 3 == "..." && isBlankOrEnd (c.peekAt 3) then
    documentMark (do moveTo (c.forward 3); push .documentEnd)
  else if ch == '[' then flowStart .flowSequenceStart
  else if ch == '{' then flowStart .flowMappingStart
  else if ch == ']' then flowEnd .flowSequenceEnd
  else if ch == '}' then flowEnd .flowMappingEnd
  else if ch == ',' then flowEntry
  else if ch == '-' && blankAfter then blockIndicator .blockSequenceStart .blockEntry fun _ => true
  else if ch == '?' && (s.inFlow || blankAfter) then
    blockIndicator .blockMappingStart .key fun s => !s.inFlow
  else if ch == ':' && (s.inFlow || blankAfter) then valueIndicator
  else if ch == '*' then keyCandidate fun c => scanAnchor c true
  else if ch == '&' then keyCandidate fun c => scanAnchor c false
  else if ch == '!' then keyCandidate scanTag
  else if ch == '|' && !s.inFlow then blockScalar false
  else if ch == '>' && !s.inFlow then blockScalar true
  else if ch == '\'' then keyCandidate fun c => (scanQuoted c false).map fun (t, c) => (.scalar t .singleQuoted, c)
  else if ch == '"' then keyCandidate fun c => (scanQuoted c true).map fun (t, c) => (.scalar t .doubleQuoted, c)
  else if startsPlain s then plain
  else throw .malformed

/-- Whether another token must be read before the next one is handed out: none is queued,
or the next one may still become a simple key. -/
def needMore : Scan Bool := do
  let s ← get
  if s.done then return false
  if s.queue.isEmpty then return true
  staleKeys
  let s ← get
  let least := s.keys.foldl (fun m (_, k) => some (match m with
    | some n => min n k.tokenNumber
    | none => k.tokenNumber)) none
  return least == some s.taken

/-- Read tokens until the next one may be handed out. Every read takes a character or ends
the stream, so the characters left bound the reads. -/
def fill : Scan Unit := do
  let rec go : Nat → Scan Unit
    | 0 => throw .malformed
    | fuel + 1 => do
      if ← needMore then
        fetchMore
        go fuel
  go ((← get).cur.left + 2)

/-- The next token, without handing it out. -/
def peek : Scan Token := do
  fill
  return ((← get).queue.head?).getD .streamEnd

/-- Hand out the next token. -/
def next : Scan Token := do
  fill
  let s ← get
  match s.queue with
  | t :: rest =>
    set { s with queue := rest, taken := s.taken + 1 }
    return t
  | [] => return .streamEnd

end Scan

end TournamentDraw.Yaml
