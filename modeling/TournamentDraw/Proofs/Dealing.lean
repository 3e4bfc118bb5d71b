import TournamentDraw.Draw.Shuffle
import TournamentDraw.Draw.Deal
import Mathlib

/-!
# Shuffling and dealing

The seeded shuffle only swaps entries, so it permutes its items; and it reads nothing of them,
so shuffling the ids of teams is shuffling the teams and taking their ids. Dealing a drawn
order around `n` groups puts every item into exactly one group, and group `g` gets
`⌊m / n⌋` items, one more when `g < m mod n`: sizes differ by at most one, larger groups first.
-/

namespace TournamentDraw.Draw

variable {α β : Type}

theorem swapAt_perm (xs : Array α) (i j : Nat) : (swapAt xs i j).toList.Perm xs.toList := by
  unfold swapAt
  split
  · split
    · exact (Array.swap_perm _ _).toList
    · exact .refl _
  · exact .refl _

theorem swapAt_map (f : α → β) (xs : Array α) (i j : Nat) :
    swapAt (xs.map f) i j = (swapAt xs i j).map f := by
  unfold swapAt
  by_cases hi : i < xs.size
  · by_cases hj : j < xs.size
    · have hi' : i < (xs.map f).size := by simpa using hi
      have hj' : j < (xs.map f).size := by simpa using hj
      rw [dif_pos hi', dif_pos hj', dif_pos hi, dif_pos hj]
      apply Array.ext
      · simp
      · intro k hk _
        simp only [Array.getElem_swap, Array.getElem_map]
        split <;> [rfl; split <;> rfl]
    · simp [hi, hj]
  · simp [hi]

theorem shuffleFrom_perm (i state : Nat) (xs : Array α) :
    (shuffleFrom i state xs).toList.Perm xs.toList := by
  induction i generalizing state xs with
  | zero => exact .refl _
  | succ i ih => exact (ih _ _).trans (swapAt_perm _ _ _)

theorem shuffleFrom_map (f : α → β) (i state : Nat) (xs : Array α) :
    shuffleFrom i state (xs.map f) = (shuffleFrom i state xs).map f := by
  induction i generalizing state xs with
  | zero => rfl
  | succ i ih => simp only [shuffleFrom, swapAt_map, ih]

/-- The seeded shuffle permutes its items. -/
theorem seededShuffle_perm (items : List α) (seed : String) :
    (seededShuffle items seed).Perm items := by
  simpa [seededShuffle] using shuffleFrom_perm (items.length - 1) (seedHash seed) items.toArray

/-- Shuffling reads nothing of the items: shuffling their images is taking the images of the
shuffled items. -/
theorem seededShuffle_map (f : α → β) (items : List α) (seed : String) :
    seededShuffle (items.map f) seed = (seededShuffle items seed).map f := by
  simp only [seededShuffle, List.length_map]
  rw [← List.map_toArray, shuffleFrom_map, Array.toList_map]

/-- Dealing reads nothing of the items either. -/
theorem dealtTo_map (f : α → β) (items : List α) (n g : Nat) :
    dealtTo (items.map f) n g = (dealtTo items n g).map f := by
  simp only [dealtTo, List.zipIdx_map, List.filter_map, List.map_map]
  rfl

/-- Items numbered by their places are distinct. -/
theorem nodup_zipIdx (items : List α) : items.zipIdx.Nodup := by
  have h : (items.zipIdx.map Prod.snd).Nodup := by
    rw [List.zipIdx_map_snd]
    exact List.nodup_range'
  exact h.of_map Prod.snd

/-- The items a deal puts into group `g` when it puts the item at place `k` into group
`f k`. -/
def placedBy (f : Nat → Nat) (items : List α) (g : Nat) : List α :=
  (items.zipIdx.filter fun p => f p.2 = g).map Prod.fst

theorem dealtTo_eq_placedBy (items : List α) (n g : Nat) :
    dealtTo items n g = placedBy (· % n) items g := rfl

/-- A deal into groups below `n` puts every item into exactly one of them. -/
theorem flatMap_placedBy_perm (items : List α) {n : Nat} {f : Nat → Nat} (hf : ∀ k, f k < n) :
    ((List.range n).flatMap (placedBy f items)).Perm items := by
  set deal := fun g : Nat => items.zipIdx.filter fun p => f p.2 = g
  -- the numbered items are distinct, so they are dealt once each when each is dealt
  have hnodup : ((List.range n).flatMap deal).Nodup := by
    refine List.nodup_flatMap.2 ⟨fun g _ => (nodup_zipIdx items).filter _, ?_⟩
    refine (List.nodup_range).imp fun {g g'} hne => ?_
    refine List.disjoint_left.2 fun {p} hp hp' => hne ?_
    simp only [deal, List.mem_filter, decide_eq_true_eq] at hp hp'
    rw [← hp.2, ← hp'.2]
  have hperm : ((List.range n).flatMap deal).Perm items.zipIdx := by
    refine (List.perm_ext_iff_of_nodup hnodup (nodup_zipIdx items)).2 fun p => ?_
    simp only [deal, List.mem_flatMap, List.mem_range, List.mem_filter, decide_eq_true_eq]
    exact ⟨fun ⟨_, _, hp, _⟩ => hp, fun hp => ⟨f p.2, hf p.2, hp, rfl⟩⟩
  have hdeal : (List.range n).flatMap (placedBy f items) =
      ((List.range n).flatMap deal).map Prod.fst := by
    simp only [List.map_flatMap, deal]
    rfl
  rw [hdeal, ← List.zipIdx_map_fst 0 items]
  exact hperm.map Prod.fst

/-- Group `g` gets as many items as there are places that go to it. -/
theorem length_placedBy (f : Nat → Nat) (items : List α) (g : Nat) :
    (placedBy f items g).length = (List.range items.length).countP fun k => f k = g := by
  rw [placedBy, List.length_map, ← List.countP_eq_length_filter]
  -- count the places of the dealt items rather than the items
  have hplaces : items.zipIdx.countP (fun p => decide (f p.2 = g)) =
      (items.zipIdx.map Prod.snd).countP (fun k => decide (f k = g)) := by
    rw [List.countP_map]
    rfl
  rw [hplaces, List.zipIdx_map_snd, ← List.range_eq_range']

/-- Dealing around `n` groups puts every item into exactly one of them. -/
theorem flatMap_dealtTo_perm (items : List α) {n : Nat} (hn : 0 < n) :
    ((List.range n).flatMap (dealtTo items n)).Perm items :=
  flatMap_placedBy_perm items fun k => Nat.mod_lt k hn

/-- Group `g` of `n` gets `⌊m / n⌋` of `m` dealt items, one more when `g < m mod n`. -/
theorem length_dealtTo (items : List α) {n g : Nat} (hg : g < n) :
    (dealtTo items n g).length = items.length / n + if g < items.length % n then 1 else 0 := by
  have hn : 0 < n := Nat.lt_of_le_of_lt (Nat.zero_le g) hg
  have hcount := Nat.count_modEq_card (b := items.length) hn g
  rw [Nat.mod_eq_of_lt hg] at hcount
  rw [← hcount, Nat.count, dealtTo_eq_placedBy, length_placedBy]
  apply List.countP_congr
  intro x _
  simp [Nat.ModEq, Nat.mod_eq_of_lt hg]

/-- Dealt groups differ in size by at most one, and a later group is never the larger. -/
theorem length_dealtTo_le {items : List α} {n j k : Nat} (hjk : j ≤ k) (hk : k < n) :
    (dealtTo items n k).length ≤ (dealtTo items n j).length ∧
      (dealtTo items n j).length ≤ (dealtTo items n k).length + 1 := by
  rw [length_dealtTo items (Nat.lt_of_le_of_lt hjk hk), length_dealtTo items hk]
  split_ifs <;> omega

end TournamentDraw.Draw
