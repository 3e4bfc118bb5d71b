/-!
# Texts as code points

A text read from JSON may hold code points that are not characters: surrogates, `U+D800` to
`U+DFFF`, that stand alone instead of in a pair. Such a text is still kept as a `String`: the
surrogate `U+D800 + k` is written as the private-use character `U+10F800 + k`, and a
character from `U+10F7FF` on that stands for itself is written after the mark `U+10F7FF`.
`codePoints` reads the code points back; it undoes `ofCodePoints` on every list of code
points below `U+110000`.
-/

namespace TournamentDraw.Text

/-- The character that stands for the first surrogate. -/
def surrogateBase : Nat := 0x10F800

/-- The mark written before a character that would otherwise be read as a surrogate or a
mark. -/
def pointMark : Nat := 0x10F7FF

/-- Whether a code point is a surrogate. -/
def isSurrogate (n : Nat) : Bool :=
  0xD800 ≤ n && n ≤ 0xDFFF

/-- The characters that write one code point. -/
def pointChars (n : Nat) : List Char :=
  if isSurrogate n then [Char.ofNat (n - 0xD800 + surrogateBase)]
  else if pointMark ≤ n then [Char.ofNat pointMark, Char.ofNat n]
  else [Char.ofNat n]

/-- The text of a list of code points. -/
def ofCodePoints (ns : List Nat) : String :=
  String.ofList (ns.flatMap pointChars)

/-- The code points that a list of characters writes. -/
def charsPoints : List Char → List Nat
  | [] => []
  | c :: rest =>
    if c.toNat = pointMark then
      match rest with
      | d :: more => d.toNat :: charsPoints more
      | [] => [c.toNat]
    else if surrogateBase ≤ c.toNat then (c.toNat - surrogateBase + 0xD800) :: charsPoints rest
    else c.toNat :: charsPoints rest

/-- The code points of a text. -/
def codePoints (s : String) : List Nat :=
  charsPoints s.toList

/-- The number of code points of a text. -/
def pointCount (s : String) : Nat :=
  (codePoints s).length

/-- The index of the first surrogate of a text, counted in code points. -/
def firstSurrogate? (s : String) : Option Nat :=
  (codePoints s).findIdx? isSurrogate

/-- The refusal to write a text in UTF-8, which has no form for surrogates: the message
names the first surrogate, or the first run of them, by code-point position. -/
def utf8Refusal? (s : String) : Option String :=
  let ps := codePoints s
  match ps.findIdx? isSurrogate with
  | none => none
  | some i =>
    let run := (ps.drop i).takeWhile isSurrogate
    let hex (n : Nat) : String := String.ofList (Nat.toDigits 16 n)
    if run.length == 1 then
      some ("'utf-8' codec can't encode character '\\u" ++ hex (run.headD 0) ++ "' in position " ++
        toString i ++ ": surrogates not allowed")
    else
      some ("'utf-8' codec can't encode characters in position " ++ toString i ++ "-" ++
        toString (i + run.length - 1) ++ ": surrogates not allowed")

end TournamentDraw.Text
