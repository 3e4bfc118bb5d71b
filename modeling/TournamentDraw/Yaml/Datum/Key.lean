import TournamentDraw.Yaml.Datum
import TournamentDraw.Hash.Sip
import TournamentDraw.Hash.Table
import TournamentDraw.Value.Compare

/-!
# Keys: their hashes and their order

Values that can be keys are hashed so that equal keys hash alike. A number hashes to its value
modulo the prime `2 ^ 61 - 1`, its sign kept, so `1`, `1.0` and `true` share a hash, and the
infinities hash to `±314159`. A text hashes by SipHash-1-3 under the zero key over its code
points, surrogates included, each in one, two or four little-endian bytes as its widest code
point needs; bytes, dates and times without a zone hash their packed fields the same way, and
a time with a zone hashes its instant as the triple of days, seconds and microseconds. The
empty byte string hashes to zero, and no hash is `-1`. The null value and not-a-number hash by
where they are stored, which a value does not carry; they take fixed stand-ins.

Keys are ordered as values: texts and bytes lexicographically, numbers by value, dates by
their fields, times without a zone by their fields and times with one by their instant. A
time without a zone and one with a zone cannot be ordered, nor a time and a date, nor any
other two kinds.

The members of a `!!set` and the keys listed from settings come in the order of a hash table
built from them (`Hash.Table`).
-/

namespace TournamentDraw.Yaml

-- Powers and sums of numbers are the core ones, with no other instance in scope taking over.
attribute [local instance (2000)] instPowNat Zero.ofOfNat0

/-- Why two keys cannot be put in order. -/
inductive OrderFault where
  /-- Two kinds with no order between them, named left to right. -/
  | unordered (left right : String)
  /-- A time without a zone and a time with one. -/
  | naiveAware
  /-- A time and a date. -/
  | stampDate
  deriving Repr, DecidableEq

/-- The message of an ordering fault. -/
def OrderFault.message : OrderFault → String
  | .unordered a b => "'<' not supported between instances of '" ++ a ++ "' and '" ++ b ++ "'"
  | .naiveAware => "can't compare offset-naive and offset-aware datetimes"
  | .stampDate => "can't compare datetime.datetime to datetime.date"

/-- The prime modulus of number hashes. -/
def hashModulus : Nat := 2 ^ (61 : Nat) - 1

/-- A signed hash as a word; `-1` becomes `-2`. -/
def signedHash (h : Int) : UInt64 :=
  UInt64.ofInt (if h = -1 then -2 else h)

/-- The hash of the number `num / den`, for `den` a power of two: its absolute value modulo
the prime, times the sign. Dividing by `2 ^ k` is multiplying by `2 ^ (61 - k)`, since
`2 ^ 61` is one modulo the prime. -/
def fractionHash (num : Int) (den : Nat) : UInt64 :=
  let k := Nat.log2 den
  let h : Int := (num.natAbs * 2 ^ ((61 - k % 61) % 61) % hashModulus : Nat)
  signedHash (if num < 0 then -h else h)

/-- The hash of a byte string: zero when empty, else SipHash-1-3 under the zero key. -/
def bytesHash (bs : List UInt8) : UInt64 :=
  if bs.isEmpty then 0
  else
    let x := Hash.sip13 0 0 bs
    if x == 0xFFFFFFFFFFFFFFFF then 0xFFFFFFFFFFFFFFFE else x

/-- The bytes of a text as it is hashed: each code point in the same width of one, two or
four little-endian bytes, the least width that holds every code point of the text. -/
def textBytes (s : String) : List UInt8 :=
  let cps := Text.codePoints s
  let top := cps.foldl max 0
  let width := if top < 256 then 1 else if top < 65536 then 2 else 4
  cps.flatMap fun c => (List.range width).map fun i => UInt8.ofNat (c / 256 ^ i % 256)

/-- The hash of a tuple from the hashes of its items, mixed in one after the other. -/
def tupleHash (lanes : List UInt64) : UInt64 :=
  let p1 : UInt64 := 11400714785074694791
  let p2 : UInt64 := 14029467366897019727
  let p5 : UInt64 := 2870177450012600261
  let acc := lanes.foldl (fun acc lane => Hash.rotl (acc + lane * p2) 31 * p1) p5
  let acc := acc + (UInt64.ofNat lanes.length ^^^ (p5 ^^^ 3527539))
  if acc == 0xFFFFFFFFFFFFFFFF then 1546275796 else acc

/-- The packed fields of a date: the year in two bytes, high first, then month and day. -/
def Date.packed (d : Date) : List UInt8 :=
  [d.year / 256, d.year % 256, d.month, d.day].map UInt8.ofNat

/-- The hash of a date and time. Without a zone, the packed date, hour, minute, second and
microseconds in three bytes; with one, the triple of its instant's days since the first day
of year one, seconds of the day and microseconds. -/
def Stamp.hash (t : Stamp) : UInt64 :=
  match t.zone with
  | Option.none =>
    bytesHash (t.date.packed ++ [t.hour, t.minute, t.second, t.micro / 65536, t.micro / 256 % 256,
      t.micro % 256].map UInt8.ofNat)
  | some z =>
    let day := daysFromCivil t.date.year t.date.month t.date.day + 719163
    let seconds : Int := day * 86400 + t.hour * 3600 + t.minute * 60 + t.second - z * 60
    let total := seconds * 1000000 + t.micro
    let rest := total % 86400000000
    tupleHash [fractionHash (total / 86400000000) 1, fractionHash (rest / 1000000) 1,
      fractionHash (rest % 1000000) 1]

/-- The stand-in hash of the null value. -/
def noneHash : UInt64 := 0x7f3a5c2e8f1c

/-- The stand-in hash of not-a-number. -/
def nanHash : UInt64 := 0

namespace Datum

/-- The hash of a key. Collections are no keys; they hash to zero. -/
def keyHash : Datum → UInt64
  | .none => noneHash
  | .bool b => if b then 1 else 0
  | .int n => fractionHash n 1
  | .float (.finite x) => let (a, b) := x.toFraction; fractionHash a b
  | .float .negZero => 0
  | .float (.infinity neg) => if neg then signedHash (-314159) else 314159
  | .float .nan => nanHash
  | .str s => bytesHash (textBytes s)
  | .bytes bs => bytesHash (bs.map UInt8.ofNat)
  | .date d => bytesHash d.packed
  | .stamp t => t.hash
  | _ => 0

/-- A number key as a value, for comparing numbers of different kinds. -/
def asNumber? : Datum → Option Value
  | .bool b => some (.bool b)
  | .int n => some (.int n)
  | .float x => some (.float x)
  | _ => Option.none

/-- The fields of a date and time without its zone, most significant first. -/
def stampFields (t : Stamp) : List Nat :=
  [t.date.year, t.date.month, t.date.day, t.hour, t.minute, t.second, t.micro]

/-- Whether key `a` is below key `b`, or why the two cannot be compared. -/
def lessThan (a b : Datum) : Except OrderFault Bool :=
  match a, b with
  | .str s, .str t => .ok (Value.textCmp s t == .lt)
  | .bytes s, .bytes t => .ok (decide (s < t))
  | .date d, .date e => .ok (decide ([d.year, d.month, d.day] < [e.year, e.month, e.day]))
  | .stamp s, .stamp t =>
    match s.zone, t.zone with
    | Option.none, Option.none => .ok (decide (stampFields s < stampFields t))
    | some _, some _ => .ok (decide (s.instant < t.instant))
    | _, _ => .error .naiveAware
  | .stamp _, .date _ | .date _, .stamp _ => .error .stampDate
  | _, _ =>
    match a.asNumber?, b.asNumber? with
    | some x, some y => .ok ((Value.relate .lt x y).toOption.getD false)
    | _, _ => .error (.unordered a.typeName b.typeName)

/-- Keys in the order of a table built from them one by one. -/
def tableOrder (ks : List Datum) : List Datum :=
  (Hash.Table.ofList sameKey keyHash ks).keys

/-- The keys of a mapping in the order of a table made large enough for them at once and then
filled in order. -/
def mappingOrder (ks : List Datum) : List Datum :=
  (Hash.Table.ofMapping sameKey keyHash ks).keys

end Datum

end TournamentDraw.Yaml
