/-!
# Similarity of two words

Two words are compared by their matching blocks. The longest block the two words share is
found first: among the longest, the one that starts first in the first word, then first in
the second. The parts to its left are matched in the same way, and so are the parts to its
right. Twice the number of matched characters over the two lengths together is the
similarity, a number between zero and one.

A mistyped word is answered by the close candidates: those whose similarity to it is at
least three fifths. At most three are kept, the most similar first, and of two equally
similar candidates the one that sorts later.
-/

namespace TournamentDraw.Text

/-- The number of leading characters two lists share. -/
def commonPrefix : List Char → List Char → Nat
  | x :: xs, y :: ys => if x = y then commonPrefix xs ys + 1 else 0
  | _, _ => 0

/-- The longest block that `a` and `b` share, as `(i, j, k)`: `a` from `i` and `b` from `j`
agree on `k` characters. Of the longest blocks it is the first in `a`, then the first in `b`;
with nothing shared, `k` is zero. -/
def longestBlock (a b : List Char) : Nat × Nat × Nat :=
  (List.range a.length).foldl (fun best i =>
    (List.range b.length).foldl (fun best j =>
      let k := commonPrefix (a.drop i) (b.drop j)
      if best.2.2 < k then (i, j, k) else best) best) (0, 0, 0)

/-- The number of characters in the matching blocks of `a` and `b`, with `fuel` levels of
splitting. Every split leaves a shorter part of `a` on each side, so `a.length + 1` levels
match every block. -/
def matchedWithin : Nat → List Char → List Char → Nat
  | 0, _, _ => 0
  | fuel + 1, a, b =>
    let (i, j, k) := longestBlock a b
    if k = 0 then 0 else
      matchedWithin fuel (a.take i) (b.take j) + k +
        matchedWithin fuel (a.drop (i + k)) (b.drop (j + k))

/-- The number of characters in the matching blocks of `a` and `b`. -/
def matched (a b : List Char) : Nat :=
  matchedWithin (a.length + 1) a b

/-- The similarity of `a` to `b` as a fraction `(num, den)`; two empty words are alike. -/
def similarity (a b : String) : Nat × Nat :=
  let total := a.length + b.length
  if total = 0 then (1, 1) else (2 * matched a.toList b.toList, total)

/-- Whether one fraction is below another. -/
def fractionLt (x y : Nat × Nat) : Bool :=
  x.1 * y.2 < y.1 * x.2

/-- The candidates close to `word`: similarity at least three fifths, the three most similar,
most similar first and, among equals, the later in order first. -/
def closeMatches (word : String) (candidates : List String) : List String :=
  let scored := candidates.filterMap fun c =>
    let r := similarity c word
    if 3 * r.2 ≤ 5 * r.1 then some (c, r) else none
  let ranked := scored.mergeSort fun x y =>
    fractionLt y.2 x.2 || (!fractionLt x.2 y.2 && decide (y.1 ≤ x.1))
  (ranked.take 3).map (·.1)

end TournamentDraw.Text
