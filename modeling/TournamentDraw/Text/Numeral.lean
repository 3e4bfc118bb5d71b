/-!
# Integers written as text

A text names an integer when, white space around it aside, it is an optional sign followed by
decimal digits, with single underscores allowed between two digits. The digits may be those
of any script of Unicode 14.0: every script writes its ten digits as a row of consecutive
code points, so a digit is known by the zero of its row. White space is that of Unicode. A
numeral of more than 4300 digits is refused, as too long to convert. Other bases up to 36
take Latin letters for the digits from ten on, and bases 2, 8 and 16 allow their prefix.
-/

namespace TournamentDraw.Text

/-- The code points of the zeros of the decimal digit rows. -/
def digitZeros : List Nat :=
  [0x30, 0x660, 0x6F0, 0x7C0, 0x966, 0x9E6, 0xA66, 0xAE6, 0xB66, 0xBE6, 0xC66, 0xCE6,
   0xD66, 0xDE6, 0xE50, 0xED0, 0xF20, 0x1040, 0x1090, 0x17E0, 0x1810, 0x1946, 0x19D0,
   0x1A80, 0x1A90, 0x1B50, 0x1BB0, 0x1C40, 0x1C50, 0xA620, 0xA8D0, 0xA900, 0xA9D0,
   0xA9F0, 0xAA50, 0xABF0, 0xFF10, 0x104A0, 0x10D30, 0x11066, 0x110F0, 0x11136,
   0x111D0, 0x112F0, 0x11450, 0x114D0, 0x11650, 0x116C0, 0x11730, 0x118E0, 0x11950,
   0x11C50, 0x11D50, 0x11DA0, 0x16A60, 0x16AC0, 0x16B50, 0x1D7CE, 0x1D7D8,
   0x1D7E2, 0x1D7EC, 0x1D7F6, 0x1E140, 0x1E2F0, 0x1E950, 0x1FBF0]

/-- The value of a decimal digit of any script. -/
def digitValue? (c : Char) : Option Nat :=
  (digitZeros.find? fun z => z ≤ c.toNat && c.toNat < z + 10).map (c.toNat - ·)

/-- Unicode white space. -/
def isSpace (c : Char) : Bool :=
  let n := c.toNat
  (0x09 ≤ n && n ≤ 0x0D) || (0x1C ≤ n && n ≤ 0x20) || n = 0x85 || n = 0xA0 || n = 0x1680 ||
    (0x2000 ≤ n && n ≤ 0x200A) || n = 0x2028 || n = 0x2029 || n = 0x202F || n = 0x205F ||
    n = 0x3000

/-- The most digits a numeral may have. -/
def maxDigits : Nat := 4300

/-- Why a text does not convert to an integer. -/
inductive NumeralFault where
  /-- The text does not write an integer in the base. -/
  | invalid
  /-- The numeral has more digits than are converted, in a base that is not a power of two. -/
  | tooLong (digits : Nat)
  deriving Repr, DecidableEq

/-- The value of a digit in a base up to 36: a decimal digit of any script, or a Latin letter
of either case for the values from 10 on. -/
def digitIn? (base : Nat) (c : Char) : Option Nat :=
  let v := match digitValue? c with
    | some d => some d
    | none =>
      if 'a' ≤ c ∧ c ≤ 'z' then some (c.toNat - 'a'.toNat + 10)
      else if 'A' ≤ c ∧ c ≤ 'Z' then some (c.toNat - 'A'.toNat + 10)
      else none
  v.filter (· < base)

/-- The digits at the front of a numeral and the characters after them; a single underscore
may stand between two digits. `none` when an underscore follows a digit without a digit after
it. -/
def leadingDigits (base : Nat) : List Char → Option (List Nat × List Char)
  | [] => some ([], [])
  | c :: '_' :: m :: more =>
    match digitIn? base c with
    | none => some ([], c :: '_' :: m :: more)
    | some d =>
      if (digitIn? base m).isSome then
        (leadingDigits base (m :: more)).map fun (ds, r) => (d :: ds, r)
      else none
  | [c, '_'] =>
    match digitIn? base c with
    | none => some ([], [c, '_'])
    | some _ => none
  | c :: rest =>
    match digitIn? base c with
    | none => some ([], c :: rest)
    | some d => (leadingDigits base rest).map fun (ds, r) => (d :: ds, r)

/-- The characters of a text without white space at either end. -/
def trimmedChars (text : String) : List Char :=
  ((text.toList.dropWhile isSpace).reverse.dropWhile isSpace).reverse

/-- The characters after an optional sign, and whether the sign is a minus. -/
def signed : List Char → Bool × List Char
  | '-' :: rest => (true, rest)
  | '+' :: rest => (false, rest)
  | cs => (false, cs)

/-- The characters after the prefix of a base (`0b`, `0o` or `0x`, in either case) and one
underscore after it, when the numeral has them. -/
def afterPrefix (base : Nat) : List Char → List Char
  | '0' :: x :: rest =>
    let marks : List Char := match base with
      | 2 => ['b', 'B']
      | 8 => ['o', 'O']
      | 16 => ['x', 'X']
      | _ => []
    if marks.contains x then
      match rest with
      | '_' :: more => more
      | _ => rest
    else '0' :: x :: rest
  | cs => cs

/-- The integer a text writes in a base from 2 to 36: white space around it, an optional
sign, the base's prefix (bases 2, 8 and 16), and digits with single underscores between
them. In a base that is not a power of two, a numeral of more than 4300 digits is refused
before the rest of the text is looked at. -/
def readInteger (base : Nat) (text : String) : Except NumeralFault Int := do
  let (neg, cs) := signed (trimmedChars text)
  match leadingDigits base (afterPrefix base cs) with
  | none => throw .invalid
  | some (ds, rest) =>
    if base &&& (base - 1) != 0 && maxDigits < ds.length then throw (.tooLong ds.length)
    if ds.isEmpty || !rest.isEmpty then throw .invalid
    let n : Nat := ds.foldl (fun acc d => base * acc + d) 0
    return if neg then -(n : Int) else n

/-- The decimal integer a text names, or `none`. -/
def integer? (text : String) : Option Int :=
  (readInteger 10 text).toOption

end TournamentDraw.Text
