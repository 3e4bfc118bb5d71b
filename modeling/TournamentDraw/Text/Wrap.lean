/-!
# Filling text to a width

Help pages are filled to a width. A text is cut into chunks: runs of blanks, and words. A word
ends before a blank, after a hyphen that joins two words (two letters, or a letter, a hyphen
and a letter, before it, and a letter after it, maybe with one more hyphen before that
letter), and before a dash of two or more hyphens that follows a word character and is
followed by one. A dash standing after such a character is a chunk of its own.

Chunks are laid on lines greedily: a line takes chunks while they fit, blanks at the start of
a later line and at the end of any line are dropped, and a chunk longer than a whole line is
cut at the width. Paragraphs are separated by empty lines; a paragraph's lines are joined by
single blanks and filled, indented as its first line is, and a paragraph whose first line is
a lone backspace is kept line by line.

The texts filled here are the library's own help texts, which are ASCII: the classes of
letters, word characters and blanks below are the ASCII ones.
-/

namespace TournamentDraw.Text

-- Powers and sums of numbers are the core ones, with no other instance in scope taking over.
attribute [local instance (2000)] instPowNat Zero.ofOfNat0

/-- The blanks between words: space, tab, line feed, vertical tab, form feed, return. -/
def isBlank (c : Char) : Bool :=
  c = ' ' || c = '\t' || c = '\n' || c = '\x0b' || c = '\x0c' || c = '\r'

/-- A word character: a letter, a digit or the underscore. -/
def isWordChar (c : Char) : Bool :=
  c.isAlphanum || c = '_'

/-- A letter of a word: a word character that is not a digit. -/
def isLetter (c : Char) : Bool :=
  c.isAlpha || c = '_'

/-- A character after which a dash may stand: a word character or one of ``!"'&.,?``. -/
def isWordPunct (c : Char) : Bool :=
  isWordChar c || "!\"'&.,?".contains c

/-- Whether the character at `i` exists and has the property. -/
def charIs (s : Array Char) (i : Nat) (p : Char → Bool) : Bool :=
  match s[i]? with
  | some c => p c
  | none => false

/-- Whether the hyphen at `e` joins two words, so that a word may end after it. -/
def joiningHyphen (s : Array Char) (e : Nat) : Bool :=
  charIs s e (· = '-') &&
    ((2 ≤ e && charIs s (e - 2) isLetter && charIs s (e - 1) isLetter) ||
      (3 ≤ e && charIs s (e - 3) isLetter && charIs s (e - 2) (· = '-') &&
        charIs s (e - 1) isLetter)) &&
    charIs s (e + 1) isLetter &&
    (charIs s (e + 2) isLetter || (charIs s (e + 2) (· = '-') && charIs s (e + 3) isLetter))

/-- The number of hyphens from `e` on. -/
def hyphensFrom (s : Array Char) (e : Nat) : Nat :=
  ((s.toList.drop e).takeWhile (· = '-')).length

/-- Whether a dash (two or more hyphens, then a word character) starts at `e`. -/
def dashAt (s : Array Char) (e : Nat) : Bool :=
  let n := hyphensFrom s e
  2 ≤ n && charIs s (e + n) isWordChar

/-- The end of the word that starts at `p`, searched from `e` on with `fuel` steps. -/
def wordEnd (s : Array Char) : Nat → Nat → Nat
  | 0, e => e
  | fuel + 1, e =>
    if joiningHyphen s e then e + 1
    else if s.size ≤ e || charIs s e isBlank then e
    else if 1 ≤ e && charIs s (e - 1) isWordPunct && dashAt s e then e
    else wordEnd s fuel (e + 1)

/-- The end of the chunk that starts at `p`. -/
def chunkEnd (s : Array Char) (p : Nat) : Nat :=
  if charIs s p isBlank then p + ((s.toList.drop p).takeWhile isBlank).length
  else if 1 ≤ p && charIs s (p - 1) isWordPunct && dashAt s p then p + hyphensFrom s p
  else wordEnd s s.size (p + 1)

/-- The chunks of `s` from `p` on, with `fuel` steps. -/
def chunksFrom (s : Array Char) : Nat → Nat → List String
  | 0, _ => []
  | fuel + 1, p =>
    if s.size ≤ p then [] else
      let e := max (chunkEnd s p) (p + 1)
      String.ofList ((s.toList.drop p).take (e - p)) :: chunksFrom s fuel e

/-- The chunks of a text: runs of blanks and words. -/
def chunks (text : String) : List String :=
  let s := text.toList.toArray
  chunksFrom s s.size 0

/-- Whether a chunk is blank. -/
def blankChunk (c : String) : Bool :=
  c.toList.all isBlank

/-- The chunks that fit on a line of `width` after `used` characters, and the rest. A chunk
longer than a whole line is cut to what is left of the line, at least one character. -/
def takeLine (width : Int) : Nat → List String → List String → List String × List String
  | used, line, c :: rest =>
    if (used + c.length : Int) ≤ width then takeLine width (used + c.length) (line ++ [c]) rest
    else if width < c.length then
      let room := max (width - used).toNat 1
      (line ++ [String.ofList (c.toList.take room)], String.ofList (c.toList.drop room) :: rest)
    else (line, c :: rest)
  | _, line, [] => (line, [])

/-- Lines filled from chunks, each prefixed by `first` on the first line and `later` after,
with `fuel` steps; `width` counts the prefix. -/
def fillLines (width : Nat) (first later : String) : Nat → Bool → List String → List String
  | 0, _, _ => []
  | _, _, [] => []
  | fuel + 1, started, cs =>
    let pre := if started then later else first
    let cs := match cs with
      | c :: rest => if started && blankChunk c then rest else c :: rest
      | [] => []
    let (line, rest) := takeLine ((width : Int) - pre.length) 0 [] cs
    let line := if line.getLast?.any blankChunk then line.dropLast else line
    if line.isEmpty then fillLines width first later fuel started rest
    else (pre ++ String.join line) :: fillLines width first later fuel true rest

/-- The lines of a text filled to `width`, the first prefixed by `first` and the others by
`later`. -/
def fill (width : Nat) (first later text : String) : List String :=
  let cs := chunks text
  fillLines width first later (cs.length + (cs.map String.length).sum + 1) false cs

/-- A paragraph to fill: its indentation, whether it is kept line by line, and its text. -/
structure Paragraph where
  indent : Nat
  keep : Bool
  text : String

/-- The paragraph made of the lines gathered so far (first line first), if any. -/
def closeParagraph (indent : Nat) : List String → List Paragraph
  | [] => []
  | first :: rest =>
    if first.trimAscii.toString = "\x08" then [⟨indent, true, "\n".intercalate rest⟩]
    else [⟨indent, false, " ".intercalate (first :: rest)⟩]

/-- Paragraphs of the lines, an empty line ending one; `indent` and `acc` describe the
paragraph being gathered. -/
def paragraphs : List String → Nat → List String → List Paragraph
  | [], indent, acc => closeParagraph indent acc
  | l :: ls, indent, acc =>
    if l.isEmpty then closeParagraph indent acc ++ paragraphs ls 0 []
    else if acc.isEmpty then
      let body := String.ofList (l.toList.dropWhile (· = ' '))
      paragraphs ls (l.length - body.length) [body]
    else paragraphs ls indent (acc ++ [l])

/-- A text filled paragraph by paragraph to `width`, each line prefixed by `indent` and the
paragraph's own indentation; paragraphs are separated by an empty line. -/
def wrapParagraphs (width : Nat) (indent : String) (text : String) : String :=
  let ps := paragraphs (text.splitOn "\n") 0 []
  "\n\n".intercalate (ps.map fun p =>
    let pre := indent ++ String.ofList (List.replicate p.indent ' ')
    if p.keep then "\n".intercalate ((p.text.splitOn "\n").map (pre ++ ·))
    else "\n".intercalate (fill width pre pre p.text))

end TournamentDraw.Text
