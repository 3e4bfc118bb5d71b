import TournamentDraw.Value
import TournamentDraw.Binary64.Double
import TournamentDraw.Text.Quote

/-!
# JSON text

Reading and writing values as JSON text. Reading keeps the members of an object in the order
they are written (a member written twice keeps its first place and its last value), reads
integers exactly and other numbers as the nearest binary64 value, accepts `NaN`, `Infinity`
and `-Infinity`, and allows blanks around the value. Every character of a text is read as the
code point it is, and an escaped surrogate that is not part of a pair is kept as a code point of
the text too (see `Text.codePoints`); it is written back escaped. A
refusal carries the position, in characters, where reading stopped: at the value that was
expected, at the delimiter that was missing, at the opening quote of an unterminated text, or
after the value when more text follows.
-/

namespace TournamentDraw.Json

/-- Why a text is not JSON, with the position where reading stopped. -/
inductive ReadError where
  | expectingValue (pos : Nat)
  | expectingDelimiter (delim : Char) (pos : Nat)
  | expectingName (pos : Nat)
  | unterminated (pos : Nat)
  | controlChar (pos : Nat)
  | badEscape (pos : Nat)
  | extraData (pos : Nat)
  /-- An integer of more than 4300 digits, which is not converted. -/
  | longInteger (pos : Nat)
  deriving Repr, DecidableEq

/-- The position of a refusal. -/
def ReadError.pos : ReadError → Nat
  | .expectingValue p | .expectingDelimiter _ p | .expectingName p | .unterminated p
  | .controlChar p | .badEscape p | .extraData p | .longInteger p => p

/-- The blanks JSON allows between tokens. -/
def isBlank (c : Char) : Bool :=
  c == ' ' || c == '\t' || c == '\n' || c == '\r'

/-- The position of the first non-blank character from `i`. -/
def skipBlank (s : Array Char) (i : Nat) : Nat :=
  let rec go : Nat → Nat → Nat
    | 0, i => i
    | fuel + 1, i => if (s[i]?.map isBlank).getD false then go fuel (i + 1) else i
  go (s.size + 1) i

/-- The character at `i`, or a NUL past the end. -/
def charAt (s : Array Char) (i : Nat) : Char :=
  s[i]?.getD '\x00'

/-- Whether the characters from `i` spell `w`. -/
def spells (s : Array Char) (i : Nat) (w : String) : Bool :=
  (s.extract i (i + w.length)).toList == w.toList

/-- The value of a hexadecimal digit. -/
def hexValue (c : Char) : Option Nat :=
  if '0' ≤ c ∧ c ≤ '9' then some (c.toNat - '0'.toNat)
  else if 'a' ≤ c ∧ c ≤ 'f' then some (c.toNat - 'a'.toNat + 10)
  else if 'A' ≤ c ∧ c ≤ 'F' then some (c.toNat - 'A'.toNat + 10)
  else none

/-- The four hexadecimal digits from `i` as a number. -/
def hex4 (s : Array Char) (i : Nat) : Option Nat :=
  [0, 1, 2, 3].foldlM (fun acc k => (hexValue (charAt s (i + k))).map (acc * 16 + ·)) 0

/-- The text whose opening quote stands at `start`, read from `i`, with the position after the
closing quote. -/
def readText (s : Array Char) (start : Nat) : Nat → Nat → List Char →
    Except ReadError (String × Nat)
  | 0, _, _ => .error (.unterminated start)
  | fuel + 1, i, acc =>
    if i ≥ s.size then .error (.unterminated start) else
    let c := charAt s i
    if c == '"' then .ok (String.ofList acc.reverse, i + 1)
    else if c.toNat < 0x20 then .error (.controlChar i)
    else if c != '\\' then
      readText s start fuel (i + 1) ((Text.pointChars c.toNat).reverse ++ acc)
    else
      if i + 1 ≥ s.size then .error (.unterminated start) else
      match charAt s (i + 1) with
      | '"' => readText s start fuel (i + 2) ('"' :: acc)
      | '\\' => readText s start fuel (i + 2) ('\\' :: acc)
      | '/' => readText s start fuel (i + 2) ('/' :: acc)
      | 'b' => readText s start fuel (i + 2) ('\x08' :: acc)
      | 'f' => readText s start fuel (i + 2) ('\x0c' :: acc)
      | 'n' => readText s start fuel (i + 2) ('\n' :: acc)
      | 'r' => readText s start fuel (i + 2) ('\r' :: acc)
      | 't' => readText s start fuel (i + 2) ('\t' :: acc)
      | 'u' =>
        -- four digits must follow, and something after them
        if s.size ≤ i + 6 then .error (.badEscape (i + 1)) else
        match hex4 s (i + 2) with
        | none => .error (.badEscape (i + 1))
        | some hi =>
          if 0xd800 ≤ hi ∧ hi ≤ 0xdbff ∧ i + 12 < s.size ∧ charAt s (i + 6) == '\\' ∧
              charAt s (i + 7) == 'u' then
            match hex4 s (i + 8) with
            | some lo =>
              if 0xdc00 ≤ lo ∧ lo ≤ 0xdfff then
                readText s start fuel (i + 12)
                  ((Text.pointChars (0x10000 + (hi - 0xd800) * 0x400 + (lo - 0xdc00))).reverse
                    ++ acc)
              else readText s start fuel (i + 6) ((Text.pointChars hi).reverse ++ acc)
            | none => .error (.badEscape (i + 7))
          else readText s start fuel (i + 6) ((Text.pointChars hi).reverse ++ acc)
      | _ => .error (.badEscape i)

/-- The digits from `i` and the position after them. -/
def digitsFrom (s : Array Char) (i : Nat) : List Char × Nat :=
  let ds := (s.extract i s.size).toList.takeWhile Char.isDigit
  (ds, i + ds.length)

/-- The natural number of a list of decimal digits. -/
def digitsValue (ds : List Char) : Nat :=
  ds.foldl (fun n c => 10 * n + (c.toNat - '0'.toNat)) 0

/-- A number from `i`: an optional minus, an integer part without leading zeros, optional
fraction and exponent. Integers are exact; numbers with a fraction or exponent are rounded. -/
def readNumber (s : Array Char) (i : Nat) : Option (Value × Nat) :=
  let neg := charAt s i == '-'
  let j := if neg then i + 1 else i
  let (intDigits, k) :=
    if charAt s j == '0' then (['0'], j + 1) else digitsFrom s j
  if intDigits.isEmpty then none else
  let (fracDigits, k) :=
    if charAt s k == '.' then
      let (ds, k') := digitsFrom s (k + 1)
      if ds.isEmpty then ([], k) else (ds, k')
    else ([], k)
  let hasFrac := !fracDigits.isEmpty
  let (expo, k, hasExp) :=
    if charAt s k == 'e' || charAt s k == 'E' then
      let sgn := charAt s (k + 1)
      let m := if sgn == '+' || sgn == '-' then k + 2 else k + 1
      let (ds, k') := digitsFrom s m
      if ds.isEmpty then ((0 : Int), k, false)
      else ((if sgn == '-' then -(digitsValue ds : Int) else digitsValue ds), k', true)
    else (0, k, false)
  let m := digitsValue (intDigits ++ fracDigits)
  if !hasFrac ∧ !hasExp then some (.int (if neg then -(m : Int) else m), k)
  else some (.float (Double.ofDecimal neg m (expo - fracDigits.length)), k)

mutual

/-- A value from position `i` and the position after it. -/
def readValue (s : Array Char) : Nat → Nat → Except ReadError (Value × Nat)
  | 0, i => .error (.expectingValue i)
  | fuel + 1, i =>
    match charAt s i with
    | '"' =>
      if i ≥ s.size then .error (.expectingValue i)
      else do
        let (t, j) ← readText s i (s.size + 1) (i + 1) []
        return (.str t, j)
    | '{' =>
      if i ≥ s.size then .error (.expectingValue i) else
      let j := skipBlank s (i + 1)
      if charAt s j == '}' ∧ j < s.size then .ok (.obj [], j + 1)
      else if charAt s j != '"' ∨ j ≥ s.size then .error (.expectingName j)
      else readMembers s fuel j []
    | '[' =>
      if i ≥ s.size then .error (.expectingValue i) else
      let j := skipBlank s (i + 1)
      if charAt s j == ']' ∧ j < s.size then .ok (.list [], j + 1)
      else readItems s fuel j []
    | _ =>
      if spells s i "null" then .ok (.null, i + 4)
      else if spells s i "true" then .ok (.bool true, i + 4)
      else if spells s i "false" then .ok (.bool false, i + 5)
      else if spells s i "NaN" then .ok (.float .nan, i + 3)
      else if spells s i "Infinity" then .ok (.float (.infinity false), i + 8)
      else if spells s i "-Infinity" then .ok (.float (.infinity true), i + 9)
      else match readNumber s i with
        | some (.int n, k) =>
          -- the digits of an integer are those read, its sign apart
          if 4300 < k - i - (if n < 0 then 1 else 0) then .error (.longInteger i)
          else .ok (.int n, k)
        | some r => .ok r
        | none => .error (.expectingValue i)

/-- The items of a list from the first item at `i`, after those in `acc`. -/
def readItems (s : Array Char) : Nat → Nat → List Value → Except ReadError (Value × Nat)
  | 0, i, _ => .error (.expectingValue i)
  | fuel + 1, i, acc => do
    let (v, j) ← readValue s fuel i
    let j := skipBlank s j
    let c := charAt s j
    if c == ']' ∧ j < s.size then return (.list (acc ++ [v]), j + 1)
    else if c != ',' ∨ j ≥ s.size then throw (.expectingDelimiter ',' j)
    else readItems s fuel (skipBlank s (j + 1)) (acc ++ [v])

/-- The members of an object from the quote of a name at `i`, after those in `acc`. -/
def readMembers (s : Array Char) : Nat → Nat → List (String × Value) →
    Except ReadError (Value × Nat)
  | 0, i, _ => .error (.expectingName i)
  | fuel + 1, i, acc => do
    let (key, j) ← readText s i (s.size + 1) (i + 1) []
    let j := skipBlank s j
    if charAt s j != ':' ∨ j ≥ s.size then throw (.expectingDelimiter ':' j)
    let (v, j) ← readValue s fuel (skipBlank s (j + 1))
    let acc := Value.setField acc key v
    let j := skipBlank s j
    let c := charAt s j
    if c == '}' ∧ j < s.size then return (.obj acc, j + 1)
    else if c != ',' ∨ j ≥ s.size then throw (.expectingDelimiter ',' j)
    else
      let k := skipBlank s (j + 1)
      if charAt s k != '"' ∨ k ≥ s.size then throw (.expectingName k)
      else readMembers s fuel k acc

end

/-- The value of a whole JSON text, blanks around it allowed. -/
def read (text : String) : Except ReadError Value := do
  let s := text.toList.toArray
  let (v, j) ← readValue s (2 * s.size + 2) (skipBlank s 0)
  let j := skipBlank s j
  if j ≠ s.size then throw (.extraData j)
  return v

/-- One code point of a text as a JSON string writes it: a quote, a backslash, a control
character or a surrogate escaped, any other code point as its character. -/
def escape (n : Nat) : String :=
  if n == '"'.toNat then "\\\""
  else if n == '\\'.toNat then "\\\\"
  else if n == '\n'.toNat then "\\n"
  else if n == '\r'.toNat then "\\r"
  else if n == '\t'.toNat then "\\t"
  else if n < 0x20 || Text.isSurrogate n then "\\u" ++ Text.hexPadded 4 n
  else (Char.ofNat n).toString

/-- A text as a JSON string, with quotes, backslashes, control characters and lone surrogates
escaped. -/
def quote (t : String) : String :=
  "\"" ++ String.join ((Text.codePoints t).map escape) ++ "\""

mutual

/-- A value as JSON text. -/
def write : Value → String
  | .null => "null"
  | .bool b => if b then "true" else "false"
  | .int n => toString n
  | .float x => x.jsonText
  | .str t => quote t
  | .list xs => "[" ++ writeItems xs ++ "]"
  | .obj fs => "\x7b" ++ writeMembers fs ++ "\x7d"

/-- The items of a list as JSON text, comma separated. -/
def writeItems : List Value → String
  | [] => ""
  | [x] => write x
  | x :: xs => write x ++ ", " ++ writeItems xs

/-- The members of an object as JSON text, comma separated. -/
def writeMembers : List (String × Value) → String
  | [] => ""
  | [(k, v)] => quote k ++ ": " ++ write v
  | (k, v) :: fs => quote k ++ ": " ++ write v ++ ", " ++ writeMembers fs

end

/-- A text as a compact JSON string: quotes, backslashes and control characters escaped, every
other character, a lone surrogate included, written as it is. -/
def quoteRaw (t : String) : String :=
  let esc (c : Char) : String :=
    if c == '"' then "\\\""
    else if c == '\\' then "\\\\"
    else if c == '\n' then "\\n"
    else if c == '\r' then "\\r"
    else if c == '\t' then "\\t"
    else if c == '\x08' then "\\b"
    else if c == '\x0c' then "\\f"
    else if c.toNat < 0x20 then "\\u" ++ Text.hexPadded 4 c.toNat
    else c.toString
  "\"" ++ String.join (t.toList.map esc) ++ "\""

mutual

/-- A value as compact JSON text: no blanks between tokens, and texts as `quoteRaw` writes
them. -/
def compact : Value → String
  | .null => "null"
  | .bool b => if b then "true" else "false"
  | .int n => toString n
  | .float x => x.jsonText
  | .str t => quoteRaw t
  | .list xs => "[" ++ compactItems xs ++ "]"
  | .obj fs => "\x7b" ++ compactMembers fs ++ "\x7d"

/-- The items of a list as compact JSON text. -/
def compactItems : List Value → String
  | [] => ""
  | [x] => compact x
  | x :: xs => compact x ++ "," ++ compactItems xs

/-- The members of an object as compact JSON text. -/
def compactMembers : List (String × Value) → String
  | [] => ""
  | [(k, v)] => quoteRaw k ++ ":" ++ compact v
  | (k, v) :: fs => quoteRaw k ++ ":" ++ compact v ++ "," ++ compactMembers fs

end

/-- Whether a binary64 number can be written in strict JSON, which has no `NaN` and no
infinities. -/
def finiteNumber : Double → Bool
  | .infinity _ | .nan => false
  | _ => true

mutual

/-- Whether a value can be written in strict JSON: every number in it is finite. -/
def strict : Value → Bool
  | .float x => finiteNumber x
  | .list xs => strictItems xs
  | .obj fs => strictMembers fs
  | _ => true

/-- Whether every item of a list can be written in strict JSON. -/
def strictItems : List Value → Bool
  | [] => true
  | x :: xs => strict x && strictItems xs

/-- Whether every member of an object can be written in strict JSON. -/
def strictMembers : List (String × Value) → Bool
  | [] => true
  | (_, v) :: fs => strict v && strictMembers fs

end

end TournamentDraw.Json
