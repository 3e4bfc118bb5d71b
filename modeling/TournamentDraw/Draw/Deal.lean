/-!
# Dealing teams into groups

Groups are named by the letters `A` to `Z`. A drawn order of teams is dealt one at a time
around the groups, and teams drawn out of the four seeding pots are placed either by a snake
draft, whose group pointer bounces at both ends, or strictly, one member of every pot per group.
-/

namespace TournamentDraw.Draw

/-- Why a deal is refused. -/
inductive DealError where
  /-- Letters exist for 0 to 26 groups only. -/
  | letterCount (count : Int)
  /-- A deal needs at least one group. -/
  | groupCount (count : Int)
  /-- A strict deal needs every non-empty pot to hold one member per group. -/
  | potSize (pot size groups : Nat)
  deriving Repr, DecidableEq

/-- The text of a refused deal. -/
def DealError.message : DealError → String
  | .letterCount n => s!"Number of groups must be between 0 and 26, got {n}"
  | .groupCount n => s!"Number of groups must be at least 1, got {n}"
  | .potSize p s g => s!"Pot {p} has {s} teams, expected exactly {g}"

/-- The letter of the group with index `i`, counted from `A`. -/
def groupLetter (i : Nat) : String :=
  (Char.ofNat ('A'.toNat + i)).toString

/-- The letters of `count` groups. -/
def groupLetters (count : Int) : Except DealError (List String) :=
  if count < 0 ∨ 26 < count then .error (.letterCount count)
  else .ok ((List.range count.toNat).map groupLetter)

/-- The number of groups of a deal, refused below one. -/
def groupTotal (count : Int) : Except DealError Nat :=
  if count < 1 then .error (.groupCount count) else .ok count.toNat

/-- The members of group `g` out of `n` when items are dealt around in turn. -/
def dealtTo {α : Type} (items : List α) (n g : Nat) : List α :=
  (items.zipIdx.filter (fun p => p.2 % n = g)).map Prod.fst

/-- Items dealt around `count` groups: the `k`-th item goes to group `k mod count`. -/
def dealRoundRobin {α : Type} (items : List α) (count : Int) : Except DealError (List (List α)) := do
  let n ← groupTotal count
  return (List.range n).map (dealtTo items n)

/-- The four seeding pots, pot `p` at index `p - 1`. -/
def potNumbers : List Nat := [1, 2, 3, 4]

/-- The members of pot `p`, none for a pot that is not given. -/
def potMembers {α : Type} (pots : List (List α)) (p : Nat) : List α :=
  (pots[p - 1]?).getD []

/-- The snake pointer: its group and whether it moves up. -/
structure SnakePointer where
  group : Nat
  up : Bool

/-- The pointer after one placement among `n` groups, turning at either end. -/
def SnakePointer.next (n : Nat) (s : SnakePointer) : SnakePointer :=
  if s.up then
    if s.group + 1 ≥ n then ⟨n - 1, false⟩ else ⟨s.group + 1, true⟩
  else
    if s.group = 0 then ⟨0, true⟩ else ⟨s.group - 1, false⟩

/-- Append `x` to group `g`. -/
def addTo {α : Type} (groups : Array (List α)) (g : Nat) (x : α) : Array (List α) :=
  groups.modify g (· ++ [x])

/-- Place members one after another at the pointer, moving it after each. -/
def snakePlace {α : Type} (n : Nat) :
    List α → SnakePointer → Array (List α) → Array (List α)
  | [], _, groups => groups
  | x :: xs, s, groups => snakePlace n xs (s.next n) (addTo groups s.group x)

/-- The snake draft: pots are emptied in order 1 to 4 while the group pointer bounces
`A B C C B A A …`. -/
def distributeSnake {α : Type} (pots : List (List α)) (count : Int) :
    Except DealError (List (List α)) := do
  let n ← groupTotal count
  let members := potNumbers.flatMap (potMembers pots)
  return (snakePlace n members ⟨0, true⟩ (Array.replicate n [])).toList

/-- The strict deal of one pot: its members go to groups `0, 1, …` in order. -/
def strictPot {α : Type} (pots : List (List α)) (n : Nat) (groups : Array (List α)) (p : Nat) :
    Except DealError (Array (List α)) :=
  let members := potMembers pots p
  if members.isEmpty then .ok groups
  else if members.length ≠ n then .error (.potSize p members.length n)
  else .ok (members.zipIdx.foldl (fun gs q => addTo gs q.2 q.1) groups)

/-- The strict deal: every non-empty pot holds exactly one member per group. -/
def distributeStrict {α : Type} (pots : List (List α)) (count : Int) :
    Except DealError (List (List α)) := do
  let n ← groupTotal count
  let groups ← potNumbers.foldlM (strictPot pots n) (Array.replicate n [])
  return groups.toList

/-- The deal of a pot draw: strict, or by the snake draft. -/
def distributePots {α : Type} (strict : Bool) (pots : List (List α)) (count : Int) :
    Except DealError (List (List α)) :=
  if strict then distributeStrict pots count else distributeSnake pots count

end TournamentDraw.Draw
