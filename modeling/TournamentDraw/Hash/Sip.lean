/-!
# SipHash-1-3

The keyed hash SipHash with one compression round per message word and three finishing
rounds, over a list of bytes. The state is four 64-bit words started from the key and four
fixed constants; every eight bytes form a little-endian word that is mixed in, and the last
word holds the remaining bytes with the message length in its top byte. The result is the
exclusive or of the four words.
-/

namespace TournamentDraw.Hash

/-- The four words of the hash state. -/
structure SipState where
  v0 : UInt64
  v1 : UInt64
  v2 : UInt64
  v3 : UInt64
  deriving Repr, DecidableEq

/-- A word rotated left by `s` bits, `0 < s < 64`. -/
def rotl (x : UInt64) (s : UInt64) : UInt64 :=
  (x <<< s) ||| (x >>> (64 - s))

/-- One round of the mixing function: two half rounds of additions, rotations and exclusive
ors. -/
def SipState.round (st : SipState) : SipState :=
  let v0 := st.v0 + st.v1
  let v2 := st.v2 + st.v3
  let v1 := rotl st.v1 13 ^^^ v0
  let v3 := rotl st.v3 16 ^^^ v2
  let v0 := rotl v0 32
  let v2 := v2 + v1
  let v0 := v0 + v3
  let v1 := rotl v1 17 ^^^ v2
  let v3 := rotl v3 21 ^^^ v0
  let v2 := rotl v2 32
  { v0, v1, v2, v3 }

/-- The state after absorbing one message word with a single round. -/
def SipState.absorb (st : SipState) (m : UInt64) : SipState :=
  let st := { st with v3 := st.v3 ^^^ m }.round
  { st with v0 := st.v0 ^^^ m }

/-- The little-endian word of up to eight bytes; missing high bytes are zero. -/
def wordLE : List UInt8 → UInt64
  | [] => 0
  | b :: bs => b.toUInt64 ||| (wordLE bs <<< 8)

/-- The state after the whole words of a message, eight bytes at a time; the bytes that do
not fill a word are returned with it. -/
def absorbWords (st : SipState) (bytes : List UInt8) : SipState × List UInt8 :=
  if _h : 8 ≤ bytes.length then
    absorbWords (st.absorb (wordLE (bytes.take 8))) (bytes.drop 8)
  else (st, bytes)
termination_by bytes.length
decreasing_by simp only [List.length_drop]; omega

/-- SipHash-1-3 of a message under the key `(k0, k1)`. -/
def sip13 (k0 k1 : UInt64) (bytes : List UInt8) : UInt64 :=
  let start : SipState :=
    { v0 := k0 ^^^ 0x736f6d6570736575, v1 := k1 ^^^ 0x646f72616e646f6d,
      v2 := k0 ^^^ 0x6c7967656e657261, v3 := k1 ^^^ 0x7465646279746573 }
  let (st, rest) := absorbWords start bytes
  let last := wordLE rest ||| ((UInt64.ofNat bytes.length) <<< 56)
  let st := st.absorb last
  let st := { st with v2 := st.v2 ^^^ 0xff }.round.round.round
  (st.v0 ^^^ st.v1) ^^^ (st.v2 ^^^ st.v3)

end TournamentDraw.Hash
