import TournamentDraw.Text.CodePoint

/-!
# The encoding of a JSON body

A body is sent as the UTF-8 bytes of its text and read back in the encoding its first bytes
show. A UTF-8 byte order mark is dropped. A zero among the first bytes means UTF-16 or
UTF-32: big-endian when the first byte is zero, little-endian when the second is, and the
wider form when the byte after that zero is zero too (or, little-endian, both bytes after
the first two). Two bytes alone are UTF-16 when either is zero. Anything else is UTF-8, which
gives the text back as it was. UTF-8 bytes never hold `FE` or `FF`, so the byte order marks
of UTF-16 and UTF-32 never start a body.

Surrogates are let through in every encoding: a lone one stays a code point of its own, and
in UTF-16 a high surrogate followed by a low one is the code point of the pair. A body that
is not a whole number of units of its encoding, or holds a code point past `U+10FFFF`, cannot
be read.
-/

namespace TournamentDraw.Text

/-- The UTF-8 bytes of a code point; a surrogate takes the three bytes of its value. -/
def utf8Point (n : Nat) : List Nat :=
  if n < 0x80 then [n]
  else if n < 0x800 then [0xC0 + n / 64, 0x80 + n % 64]
  else if n < 0x10000 then [0xE0 + n / 4096, 0x80 + n / 64 % 64, 0x80 + n % 64]
  else [0xF0 + n / 262144, 0x80 + n / 4096 % 64, 0x80 + n / 64 % 64, 0x80 + n % 64]

/-- The UTF-8 bytes of a text. -/
def utf8Bytes (s : String) : List Nat :=
  (codePoints s).flatMap utf8Point

/-- The encodings a body can be read in. -/
inductive Encoding where
  /-- UTF-8. -/
  | utf8
  /-- UTF-8 after a byte order mark. -/
  | utf8Marked
  /-- UTF-16, big-endian or little-endian. -/
  | utf16 (bigEndian : Bool)
  /-- UTF-32, big-endian or little-endian. -/
  | utf32 (bigEndian : Bool)
  deriving Repr, DecidableEq

/-- The encoding that the first bytes of a body show. -/
def detect : List Nat → Encoding
  | 0xEF :: 0xBB :: 0xBF :: _ => .utf8Marked
  | b0 :: b1 :: b2 :: b3 :: _ =>
    if b0 = 0 then (if b1 ≠ 0 then .utf16 true else .utf32 true)
    else if b1 = 0 then (if b2 ≠ 0 ∨ b3 ≠ 0 then .utf16 false else .utf32 false)
    else .utf8
  | [b0, b1] => if b0 = 0 then .utf16 true else if b1 = 0 then .utf16 false else .utf8
  | _ => .utf8

/-- The units of a byte list, `width` bytes each in the given order; none when bytes are left
over. -/
def units (width : Nat) (bigEndian : Bool) (bs : List Nat) : Option (List Nat) :=
  if width = 0 then none else
  let rec go : Nat → List Nat → Option (List Nat)
    | 0, _ => none
    | fuel + 1, bs =>
      if bs.isEmpty then some []
      else if bs.length < width then none
      else
        let part := bs.take width
        let ordered := if bigEndian then part else part.reverse
        (go fuel (bs.drop width)).map (ordered.foldl (fun acc b => 256 * acc + b) 0 :: ·)
  go (bs.length + 1) bs

/-- The code points of UTF-16 code units: a high surrogate followed by a low one is the code
point of the pair, any other unit stands for itself. -/
def pairUp : List Nat → List Nat
  | [] => []
  | hi :: tl =>
    match tl with
    | [] => [hi]
    | lo :: rest =>
      if 0xD800 ≤ hi ∧ hi < 0xDC00 ∧ 0xDC00 ≤ lo ∧ lo < 0xE000 then
        (0x10000 + (hi - 0xD800) * 0x400 + (lo - 0xDC00)) :: pairUp rest
      else hi :: pairUp (lo :: rest)

/-- The text of a body, read in the encoding its bytes show, or none when it cannot be read
in it. -/
def bodyText (s : String) : Option String :=
  let bs := utf8Bytes s
  match detect bs with
  | .utf8 => some s
  | .utf8Marked => some (String.ofList (s.toList.drop 1))
  | .utf16 big => (units 2 big bs).map fun us => ofCodePoints (pairUp us)
  | .utf32 big =>
    (units 4 big bs).bind fun ps => if ps.all (· < 0x110000) then some (ofCodePoints ps) else none

end TournamentDraw.Text
