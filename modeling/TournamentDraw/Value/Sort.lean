/-!
# Sorting by a comparison that may refuse

A stable sort whose less-than test may refuse a pair, as comparisons of values of unordered
kinds do. Which pair is refused first depends on the order in which pairs are compared, so
that order is part of the definition: the run at the front (ascending, or strictly descending
and then reversed) is kept as it is, and every later element is inserted into the sorted front
by binary search, compared with the middle of the remaining range each time. Equal elements
go after those already placed, so on a test that never refuses this is a stable sort.
-/

namespace TournamentDraw

variable {α ε : Type}

/-- The length of the run that continues after `prev`, counted from `n`: elements not below
their predecessor when `descending` is false, elements strictly below it when it is true. -/
def runFrom (lt : α → α → Except ε Bool) (descending : Bool) : α → List α → Nat → Except ε Nat
  | _, [], n => pure n
  | prev, x :: xs, n => do
    if (← lt x prev) == descending then runFrom lt descending x xs (n + 1) else pure n

/-- Where `x` goes in the sorted `xs` between `lo` and `hi`: after every element it is not
below. Each step halves the range; the fuel bounds the steps. -/
def insertionPoint (lt : α → α → Except ε Bool) (x : α) (xs : Array α) :
    Nat → Nat → Nat → Except ε Nat
  | 0, lo, _ => pure lo
  | fuel + 1, lo, hi =>
    if lo < hi then
      let p := lo + (hi - lo) / 2
      match xs[p]? with
      | none => pure lo
      | some y => do
        if ← lt x y then insertionPoint lt x xs fuel lo p
        else insertionPoint lt x xs fuel (p + 1) hi
    else pure lo

/-- `xs` with `x` inserted at its place among the sorted elements. -/
def insertSorted (lt : α → α → Except ε Bool) (xs : Array α) (x : α) : Except ε (Array α) := do
  let p ← insertionPoint lt x xs (xs.size + 1) 0 xs.size
  return (xs.extract 0 p).push x ++ xs.extract p xs.size

/-- The elements in ascending order by `lt`, equal ones in their given order, or the first
refusal of a comparison. -/
def sortWith (lt : α → α → Except ε Bool) (xs : List α) : Except ε (List α) :=
  match xs with
  | a :: b :: rest => do
    let descending ← lt b a
    let run ← runFrom lt descending b rest 2
    let front := if descending then (xs.take run).reverse else xs.take run
    let sorted ← (xs.drop run).foldlM (insertSorted lt) front.toArray
    return sorted.toList
  | _ => pure xs

end TournamentDraw
