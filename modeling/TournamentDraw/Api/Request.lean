import TournamentDraw.Value

/-!
# Requests and responses of the JSON API

A request names a method and a target: a path, perhaps followed by `?` and a query string. It
carries headers, query parameters and a body text, which is empty when no body is sent. A
response is a status code and a JSON value.

The path a route sees is the target's path, its leading slashes made one, with its percent
escapes decoded twice: once when the address is read and once more when the request is handed
to the routes, so `%2541` reaches them as `A`. A `%` that does not start an escape stays as it
is, and escaped bytes that are not UTF-8 become replacement characters, one for each maximal
part of a sequence that could have been completed. Header names are compared without regard to
case; of two query parameters of one name, the later counts.
-/

namespace TournamentDraw.Api

/-- A request to the API. -/
structure Request where
  method : String
  target : String
  headers : List (String × String) := []
  params : List (String × String) := []
  body : String := ""
  deriving Repr, DecidableEq, Inhabited

/-- A response of the API: its status code and its JSON body. -/
structure Response where
  status : Nat
  body : Value
  deriving Repr, Inhabited

/-- The value of a hexadecimal digit. -/
def hexDigit? (c : Char) : Option Nat :=
  if '0' ≤ c ∧ c ≤ '9' then some (c.toNat - '0'.toNat)
  else if 'a' ≤ c ∧ c ≤ 'f' then some (c.toNat - 'a'.toNat + 10)
  else if 'A' ≤ c ∧ c ≤ 'F' then some (c.toNat - 'A'.toNat + 10)
  else none

/-- The bytes of a text with its percent escapes decoded and every other character written
in UTF-8. -/
def escapedBytes : List Char → List Nat
  | '%' :: a :: b :: more =>
    match hexDigit? a, hexDigit? b with
    | some x, some y => (16 * x + y) :: escapedBytes more
    | _, _ => '%'.toNat :: escapedBytes (a :: b :: more)
  | c :: rest => (String.singleton c).toUTF8.toList.map (·.toNat) ++ escapedBytes rest
  | [] => []
termination_by l => l.length

/-- How a UTF-8 lead byte goes on: the number of bytes that follow it, the range the first of
them must lie in, and the bits the lead byte carries. Bytes that lead no sequence have none. -/
def leadByte (b : Nat) : Option (Nat × Nat × Nat × Nat) :=
  if 0xC2 ≤ b ∧ b ≤ 0xDF then some (1, 0x80, 0xBF, b - 0xC0)
  else if b = 0xE0 then some (2, 0xA0, 0xBF, 0)
  else if b = 0xED then some (2, 0x80, 0x9F, 0x0D)
  else if 0xE1 ≤ b ∧ b ≤ 0xEF then some (2, 0x80, 0xBF, b - 0xE0)
  else if b = 0xF0 then some (3, 0x90, 0xBF, 0)
  else if b = 0xF4 then some (3, 0x80, 0x8F, 4)
  else if 0xF1 ≤ b ∧ b ≤ 0xF3 then some (3, 0x80, 0xBF, b - 0xF0)
  else none

/-- Read `k` continuation bytes, the first in `lo..hi` and the others in `0x80..0xBF`, onto
the bits `v`: the character, or none with the rest from the first byte that does not fit. -/
def trailBytes : Nat → Nat → Nat → Nat → List Nat → Option Char × List Nat
  | 0, _, _, v, bs => (some (Char.ofNat v), bs)
  | _ + 1, _, _, _, [] => (none, [])
  | k + 1, lo, hi, v, c :: cs =>
    if lo ≤ c ∧ c ≤ hi then trailBytes k 0x80 0xBF (v * 64 + (c - 0x80)) cs
    else (none, c :: cs)

/-- Decode UTF-8 bytes, a replacement character standing for each maximal part of a sequence
that is not valid; with `fuel` steps. -/
def decodeBytes : Nat → List Nat → List Char
  | 0, _ => []
  | _, [] => []
  | fuel + 1, b :: bs =>
    if b < 0x80 then Char.ofNat b :: decodeBytes fuel bs
    else match leadByte b with
      | none => '\uFFFD' :: decodeBytes fuel bs
      | some (k, lo, hi, v) =>
        let (c, rest) := trailBytes k lo hi v bs
        c.getD '\uFFFD' :: decodeBytes fuel rest

/-- A text with its percent escapes decoded. -/
def unescape (s : String) : String :=
  let bytes := escapedBytes s.toList
  String.ofList (decodeBytes (bytes.length + 1) bytes)

/-- A query string as name and value pairs: pairs split at `&`, name and value at the first
`=`, a plus standing for a blank, and escapes decoded. -/
def queryPairs (q : String) : List (String × String) :=
  let plain (t : String) : String := unescape (t.map fun c => if c = '+' then ' ' else c)
  ((q.splitOn "&").filter (· ≠ "")).map fun part =>
    match part.splitOn "=" with
    | name :: rest => (plain name, plain ("=".intercalate rest))
    | [] => ("", "")

namespace Request

/-- The target's path and query string. -/
def pathAndQuery (r : Request) : String × String :=
  match r.target.splitOn "?" with
  | p :: rest => (p, "?".intercalate rest)
  | [] => ("", "")

/-- The path the routes see: the target's path with its leading slashes made one, decoded
twice. -/
def path (r : Request) : String :=
  unescape (unescape ("/" ++ String.ofList (r.pathAndQuery.1.toList.dropWhile (· = '/'))))

/-- The query parameters: those of the target, then the given ones. -/
def query (r : Request) : List (String × String) :=
  queryPairs r.pathAndQuery.2 ++ r.params

/-- The value of a query parameter; of several of one name, the last. -/
def param? (r : Request) (name : String) : Option String :=
  (r.query.filter (·.1 == name)).getLast?.map (·.2)

/-- The value of a header, its name compared without regard to case. -/
def header? (r : Request) (name : String) : Option String :=
  (r.headers.find? fun (k, _) => k.toLower == name.toLower).map (·.2)

end Request

end TournamentDraw.Api
