/-!
# Open-addressing tables and the order of their entries

A table of `2 ^ k` slots, eight at least, keeps entries with 64-bit hashes. An entry goes to
the first free slot of its probe sequence: the slot of its hash modulo the size, together
with the nine slots after it when those lie inside the table; then the slot `5 i + 1 + p`
from slot `i`, where `p` is the hash shifted right by five bits more at every step. Once three
fifths of the slots would be taken the table grows to the least power of two above four times
its entries, and the entries are entered again in the order of their slots.

Reading the slots one after the other gives the order in which a table lists its entries.
That order depends on the hashes and on the history of the table, so a table is built from
its inserts and never compared by its contents.
-/

namespace TournamentDraw.Hash

-- Powers and sums of numbers are the core ones, with no other instance in scope taking over.
attribute [local instance (2000)] instPowNat Zero.ofOfNat0

/-- The least table size, a power of two of at least eight, that is above `n`. -/
def sizeAbove (n : Nat) : Nat :=
  max 8 (2 ^ (Nat.log2 n + 1))

/-- A table of slots, each empty or holding an entry with its hash. -/
structure Table (α : Type) where
  slots : Array (Option (α × UInt64))
  deriving Repr, Inhabited

namespace Table

variable {α : Type}

/-- An empty table of `n` slots. -/
def empty (n : Nat) : Table α :=
  { slots := Array.replicate n none }

/-- The number of entries. -/
def size (t : Table α) : Nat :=
  t.slots.foldl (fun n s => if s.isSome then n + 1 else n) 0

/-- The entries in the order of their slots. -/
def entries (t : Table α) : List (α × UInt64) :=
  t.slots.toList.filterMap id

/-- The keys in the order of their slots. -/
def keys (t : Table α) : List α :=
  t.entries.map (·.1)

/-- The slots tried from a base slot: itself, and the nine after it when they all lie in the
table. -/
def run (slotCount i : Nat) : List Nat :=
  if i + 10 ≤ slotCount then List.range' i 10 else [i]

/-- The outcome of trying one run of slots: a free slot, an entry equal to the one placed
(`some none`), or nothing yet (`none`). -/
def tryRun (t : Table α) (same : α → Bool) (h : UInt64) : List Nat → Option (Option Nat)
  | [] => none
  | j :: js =>
    match t.slots[j]? with
    | some none => some (some j)
    | some (some (k, hk)) => if hk == h && same k then some none else tryRun t same h js
    | none => tryRun t same h js

/-- The free slot where an entry with hash `h` goes, or `none` if an equal entry is met on
the way. The probe sequence visits every slot once its shifted hash is spent, so `fuel` steps
beyond the size of the table and the sixty-four bits of the hash always suffice. -/
def slotFor (t : Table α) (same : α → Bool) (h : UInt64) : Option Nat :=
  let n := t.slots.size
  let rec go : Nat → Nat → UInt64 → Option Nat
    | 0, _, _ => none
    | fuel + 1, i, perturb =>
      match tryRun t same h (run n i) with
      | some r => r
      | none =>
        let perturb := perturb >>> 5
        go fuel ((i * 5 + 1 + perturb.toNat) % n) perturb
  go (n + 64) (h.toNat % n) h

/-- The table with an entry put into a slot. -/
def putAt (t : Table α) (i : Nat) (x : α) (h : UInt64) : Table α :=
  { slots := t.slots.set! i (some (x, h)) }

/-- The entries entered again, in slot order, into an empty table of the least size above
`minUsed`. -/
def regrow (t : Table α) (minUsed : Nat) : Table α :=
  t.entries.foldl (fun u (x, h) =>
    match u.slotFor (fun _ => false) h with
    | some i => u.putAt i x h
    | none => u) (empty (sizeAbove minUsed))

/-- The table with an entry added, unless an equal one is there; a table three fifths full
grows. -/
def insert (t : Table α) (same : α → Bool) (x : α) (h : UInt64) : Table α :=
  match t.slotFor same h with
  | none => t
  | some i =>
    let u := t.putAt i x h
    let used := u.size
    if used * 5 < (u.slots.size - 1) * 3 then u
    else u.regrow (if used > 50000 then used * 2 else used * 4)

/-- A table built from the keys of a mapping: it is first made large enough for all of them,
then they are added in order. -/
def ofMapping (eq : α → α → Bool) (hash : α → UInt64) (ks : List α) : Table α :=
  let start : Table α := if ks.length * 5 ≥ 7 * 3 then (empty 8).regrow (ks.length * 2) else empty 8
  ks.foldl (fun t k => t.insert (eq k) k (hash k)) start

/-- A table built from a sequence of values, added one by one. -/
def ofList (eq : α → α → Bool) (hash : α → UInt64) (xs : List α) : Table α :=
  xs.foldl (fun t x => t.insert (eq x) x (hash x)) (empty 8)

/-- A copy of a table: the same slots when the fresh table grows to the same size, else its
entries entered again in slot order. -/
def copy (t : Table α) : Table α :=
  let used := t.size
  let fresh : Table α := if used * 5 ≥ 7 * 3 then (empty 8).regrow (used * 2) else empty 8
  if fresh.slots.size == t.slots.size then t
  else t.entries.foldl (fun u (x, h) =>
    match u.slotFor (fun _ => false) h with
    | some i => u.putAt i x h
    | none => u) fresh

/-- The table without the entries that `drop` picks, where `drop` tests membership in a table
of `otherSize` entries. A table more than four times that size is copied and the dropped
entries are cleared from the copy; a smaller one is read in slot order into a fresh table. -/
def without (eq : α → α → Bool) (t : Table α) (drop : α → Bool) (otherSize : Nat) : Table α :=
  if t.size / 4 > otherSize then
    let c := t.copy
    { slots := c.slots.map fun s => match s with
        | some (x, h) => if drop x then none else some (x, h)
        | none => none }
  else
    t.entries.foldl (fun u (x, h) => if drop x then u else u.insert (eq x) x h) (empty 8)

end Table

end TournamentDraw.Hash
