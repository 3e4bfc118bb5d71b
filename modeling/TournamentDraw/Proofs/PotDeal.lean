import TournamentDraw.Proofs.Dealing

/-!
# Dealing the pots

Teams drawn out of the four pots are dealt by a snake draft or strictly. The snake pointer after
`m` placements among `n` groups is a function of `m` alone (`snakeAt`): passes of `n` placements
go up and down in turn, and each visits every group once. So the snake deals the pots' members,
pot after pot, the way the round robin deals a drawn order, with the group of place `m` read off
the pointer: every member lands in one group, sizes differ by at most one, and a pot of exactly
`n` members fills a pass of its own, one member per group. The strict deal gives group `k` the
`k`-th member of every non-empty pot, and is refused unless each non-empty pot holds one member
per group.
-/

namespace TournamentDraw.Draw

variable {α : Type}

/-- The snake pointer after `m` placements among `n` groups. -/
def snakeAt (n m : Nat) : SnakePointer :=
  if m / n % 2 = 0 then ⟨m % n, true⟩ else ⟨n - 1 - m % n, false⟩

theorem snakeAt_mul_add {n q r : Nat} (hr : r < n) :
    snakeAt n (n * q + r) = if q % 2 = 0 then ⟨r, true⟩ else ⟨n - 1 - r, false⟩ := by
  have hn : 0 < n := Nat.lt_of_le_of_lt (Nat.zero_le r) hr
  have hdiv : (n * q + r) / n = q := by
    rw [Nat.mul_add_div hn, Nat.div_eq_of_lt hr, Nat.add_zero]
  have hmod : (n * q + r) % n = r := by
    rw [Nat.mul_add_mod, Nat.mod_eq_of_lt hr]
  simp only [snakeAt, hdiv, hmod]

/-- One placement moves the pointer on by one place. -/
theorem next_snakeAt {n : Nat} (hn : 0 < n) (m : Nat) :
    (snakeAt n m).next n = snakeAt n (m + 1) := by
  obtain ⟨q, r, hr, rfl⟩ : ∃ q r, r < n ∧ m = n * q + r :=
    ⟨m / n, m % n, Nat.mod_lt m hn, (Nat.div_add_mod m n).symm⟩
  rw [snakeAt_mul_add hr]
  by_cases hlast : r + 1 < n
  · -- the pass goes on
    rw [show n * q + r + 1 = n * q + (r + 1) by omega, snakeAt_mul_add hlast]
    rcases Nat.mod_two_eq_zero_or_one q with hq | hq
    · simp [hq, SnakePointer.next, Nat.not_le.2 hlast]
    · have hturn : n - 1 - r ≠ 0 := by omega
      simp [hq, SnakePointer.next, hturn]
      omega
  · -- the pass ends and the pointer turns
    rw [show n * q + r + 1 = n * (q + 1) + 0 by rw [Nat.mul_succ]; omega, snakeAt_mul_add hn]
    rcases Nat.mod_two_eq_zero_or_one q with hq | hq
    · have hq' : (q + 1) % 2 = 1 := by omega
      simp [hq, hq', SnakePointer.next]
      omega
    · have hq' : (q + 1) % 2 = 0 := by omega
      have hturn : n - 1 - r = 0 := by omega
      simp [hq, hq', SnakePointer.next, hturn]

@[simp] theorem snakeAt_zero (n : Nat) : snakeAt n 0 = ⟨0, true⟩ := by
  simp [snakeAt]

theorem group_snakeAt_lt {n : Nat} (hn : 0 < n) (m : Nat) : (snakeAt n m).group < n := by
  unfold snakeAt
  have := Nat.mod_lt m hn
  split <;> simp only <;> omega

theorem getElem?_addTo (groups : Array (List α)) (g : Nat) (x : α) (k : Nat) :
    (addTo groups g x)[k]? = if g = k then groups[k]?.map (· ++ [x]) else groups[k]? := by
  simp only [addTo, Array.getElem?_modify]

/-- The snake draft from place `m` on appends to each group the members placed while the
pointer stood at it. -/
theorem getElem?_snakePlace {n : Nat} (hn : 0 < n) (xs : List α) (m : Nat)
    (groups : Array (List α)) (g : Nat) :
    (snakePlace n xs (snakeAt n m) groups)[g]? = groups[g]?.map
      (· ++ ((xs.zipIdx m).filter fun p => (snakeAt n p.2).group = g).map Prod.fst) := by
  induction xs generalizing m groups with
  | nil => simp [snakePlace]
  | cons x xs ih =>
    rw [snakePlace, next_snakeAt hn, ih, getElem?_addTo, List.zipIdx_cons, List.filter_cons]
    by_cases hg : (snakeAt n m).group = g
    · simp [hg, Option.map_map, Function.comp_def]
    · simp [hg]

/-- The members the snake draft puts into group `g` of `n`. -/
def snakeTo (items : List α) (n g : Nat) : List α :=
  placedBy (fun k => (snakeAt n k).group) items g

/-- The snake draft deals the pots' members, pot after pot, into the groups the pointer names. -/
theorem distributeSnake_eq (pots : List (List α)) {n : Nat} (hn : 0 < n) :
    distributeSnake pots n =
      .ok ((List.range n).map (snakeTo (potNumbers.flatMap (potMembers pots)) n)) := by
  have htotal : groupTotal (n : Int) = .ok n := by
    simp only [groupTotal]
    rw [if_neg (by omega)]
    rfl
  simp only [distributeSnake, htotal, bind, Except.bind, pure, Except.pure, Except.ok.injEq]
  apply List.ext_getElem?
  intro g
  rw [Array.getElem?_toList, ← snakeAt_zero n, getElem?_snakePlace hn, List.getElem?_map]
  by_cases hg : g < n
  · simp [hg, snakeTo, placedBy]
  · simp [hg]

/-- The place of group `g` in pass `q` of the snake: counted from the first group in even passes,
from the last in odd ones. -/
def snakeRank (n q g : Nat) : Nat := if q % 2 = 0 then g else n - 1 - g

theorem group_snakeAt_eq_iff {n q r g : Nat} (hr : r < n) (hg : g < n) :
    (snakeAt n (n * q + r)).group = g ↔ snakeRank n q g = r := by
  rw [snakeAt_mul_add hr, snakeRank]
  split <;> simp only <;> omega

/-- The first `r` placements of pass `q` reach group `g` once if its place in the pass is below
`r`, and otherwise not at all. -/
theorem countP_snake_pass {n q r g : Nat} (hg : g < n) (hr : r ≤ n) :
    (List.range' (n * q) r).countP (fun k => (snakeAt n k).group = g) =
      if snakeRank n q g < r then 1 else 0 := by
  induction r with
  | zero => simp
  | succ r ih =>
    have hlast := group_snakeAt_eq_iff (q := q) (Nat.lt_of_lt_of_le (Nat.lt_succ_self r) hr) hg
    rw [List.range'_1_concat, List.countP_append, ih (by omega), List.countP_singleton]
    by_cases hrank : snakeRank n q g = r
    · simp [hlast.2 hrank, hrank]
    · rw [decide_eq_false (mt hlast.1 hrank), if_neg Bool.false_ne_true, Nat.add_zero]
      split_ifs <;> omega

/-- Every full pass reaches each group once. -/
theorem countP_snake_passes {n q g : Nat} (hg : g < n) :
    (List.range (n * q)).countP (fun k => (snakeAt n k).group = g) = q := by
  induction q with
  | zero => simp
  | succ q ih =>
    have hrank : snakeRank n q g < n := by
      unfold snakeRank
      split <;> omega
    rw [Nat.mul_succ, List.range_add, ← List.range'_eq_map_range, List.countP_append, ih,
      countP_snake_pass hg le_rfl, if_pos hrank]

/-- Group `g` of `n` gets `⌊m / n⌋` of `m` members, one more when its place in the last pass
comes before the pass breaks off. -/
theorem length_snakeTo (items : List α) {n g : Nat} (hg : g < n) :
    (snakeTo items n g).length = items.length / n +
      if snakeRank n (items.length / n) g < items.length % n then 1 else 0 := by
  have hn : 0 < n := Nat.lt_of_le_of_lt (Nat.zero_le g) hg
  rw [snakeTo, length_placedBy]
  conv => lhs; rw [← Nat.div_add_mod items.length n]
  rw [List.range_add, ← List.range'_eq_map_range, List.countP_append, countP_snake_passes hg,
    countP_snake_pass hg (Nat.mod_lt _ hn).le]

/-- The snake's groups differ in size by at most one. -/
theorem length_snakeTo_le (items : List α) {n g g' : Nat} (hg : g < n) (hg' : g' < n) :
    (snakeTo items n g).length ≤ (snakeTo items n g').length + 1 := by
  rw [length_snakeTo items hg, length_snakeTo items hg']
  split_ifs <;> omega

/-- The members the snake draft puts into group `g` out of a run of members placed from place
`m` on. -/
def snakeFrom (items : List α) (n m g : Nat) : List α :=
  ((items.zipIdx m).filter fun p => (snakeAt n p.2).group = g).map Prod.fst

theorem snakeTo_eq_snakeFrom (items : List α) (n g : Nat) :
    snakeTo items n g = snakeFrom items n 0 g := rfl

theorem snakeFrom_append (l₁ l₂ : List α) (n m g : Nat) :
    snakeFrom (l₁ ++ l₂) n m g = snakeFrom l₁ n m g ++ snakeFrom l₂ n (m + l₁.length) g := by
  simp [snakeFrom, List.zipIdx_append]

theorem snakeFrom_sublist (items : List α) (n m g : Nat) : (snakeFrom items n m g).Sublist items := by
  have h := (List.filter_sublist (p := fun p : α × Nat => decide ((snakeAt n p.2).group = g))
    (l := items.zipIdx m)).map Prod.fst
  rwa [List.zipIdx_map_fst] at h

/-- A run of `n` members placed from the start of a pass gives each group one of them. -/
theorem length_snakeFrom_pass {items : List α} {n g : Nat} (hg : g < n) (hl : items.length = n)
    (j : Nat) : (snakeFrom items n (n * j) g).length = 1 := by
  have hrank : snakeRank n j g < n := by
    unfold snakeRank
    split <;> omega
  rw [snakeFrom, List.length_map, ← List.countP_eq_length_filter]
  have hplaces : (items.zipIdx (n * j)).countP (fun p => decide ((snakeAt n p.2).group = g)) =
      ((items.zipIdx (n * j)).map Prod.snd).countP (fun k => decide ((snakeAt n k).group = g)) := by
    rw [List.countP_map]
    rfl
  rw [hplaces, List.zipIdx_map_snd, hl, countP_snake_pass hg le_rfl, if_pos hrank]

/-- The snake draft puts every member into exactly one group. -/
theorem flatMap_snakeTo_perm (items : List α) {n : Nat} (hn : 0 < n) :
    ((List.range n).flatMap (snakeTo items n)).Perm items :=
  flatMap_placedBy_perm items (group_snakeAt_lt hn)

/-! ### The snake draft in closed form -/

/-- The group of the `k`-th placement of the snake draft among `n` groups, read off `k` modulo
`2 n`: the first `n` places of every two passes go up the groups, the next `n` come back down. -/
def snakeGroup (n k : Nat) : Nat :=
  if k % (2 * n) < n then k % (2 * n) else 2 * n - 1 - k % (2 * n)

/-- The pointer after `k` placements stands at group `snakeGroup n k`. -/
theorem group_snakeAt {n : Nat} (hn : 0 < n) (k : Nat) :
    (snakeAt n k).group = snakeGroup n k := by
  have hmod : k % (2 * n) = k % n + n * (k / n % 2) := by
    rw [Nat.mul_comm, Nat.mod_mul]
  have hlt := Nat.mod_lt k hn
  rcases Nat.mod_two_eq_zero_or_one (k / n) with h | h
  · rw [h, Nat.mul_zero, Nat.add_zero] at hmod
    simp only [snakeAt, snakeGroup, h, if_true, hmod, if_pos hlt]
  · -- an odd pass: `k mod 2 n` is `n` past the place in the pass, counted from the last group
    rw [h, Nat.mul_one] at hmod
    simp only [snakeAt, snakeGroup, h, hmod, Nat.one_ne_zero, if_false,
      if_neg (show ¬(k % n + n < n) by omega)]
    omega

/-- With every pot empty or of one member per group, the members that group `g` takes out of
pots placed from the start of a pass are, pot by pot, one member of each non-empty pot and none
of an empty one. -/
theorem snakeFrom_full_parts {n g : Nat} (hg : g < n) :
    ∀ (Ls : List (List α)) (j : Nat), (∀ ms ∈ Ls, ms = [] ∨ ms.length = n) →
      ∃ parts, snakeFrom Ls.flatten n (n * j) g = parts.flatten ∧
        List.Forall₂ (fun part ms => part.Sublist ms ∧ part.length = if ms = [] then 0 else 1)
          parts Ls
  | [], _, _ => ⟨[], rfl, .nil⟩
  | ms :: rest, j, hfull => by
    -- the first pot fills pass `j`, or is empty and fills nothing
    obtain ⟨j', hj'⟩ : ∃ j', n * j + ms.length = n * j' := by
      rcases hfull ms List.mem_cons_self with h | h
      · exact ⟨j, by simp [h]⟩
      · exact ⟨j + 1, by rw [h, Nat.mul_succ]⟩
    obtain ⟨parts, hparts, hall⟩ := snakeFrom_full_parts hg rest j'
      fun ms' h => hfull ms' (List.mem_cons_of_mem _ h)
    refine ⟨snakeFrom ms n (n * j) g :: parts, ?_,
      .cons ⟨snakeFrom_sublist ms n (n * j) g, ?_⟩ hall⟩
    · rw [List.flatten_cons, snakeFrom_append, hj', hparts, List.flatten_cons]
    · rcases hfull ms List.mem_cons_self with rfl | h
      · rfl
      · have hne : ms ≠ [] := by
          rintro rfl
          simp at h
          omega
        rw [if_neg hne, length_snakeFrom_pass hg h j]

theorem flatten_sublist_of_forall₂ {R : List α → List α → Prop} (hR : ∀ a b, R a b → a.Sublist b)
    {parts pots : List (List α)} (h : List.Forall₂ R parts pots) :
    parts.flatten.Sublist pots.flatten := by
  induction h with
  | nil => exact .slnil
  | @cons part ms parts rest hpart _ ih => exact (hR part ms hpart).append ih

/-- Parts taken pot by pot, one member of each non-empty pot and none of an empty one: with no
member in two pots, they hold exactly one member of each non-empty pot. -/
theorem countP_flatten_parts [DecidableEq α] {parts pots : List (List α)}
    (hparts : List.Forall₂ (fun part ms => part.Sublist ms ∧
      part.length = if ms = [] then 0 else 1) parts pots)
    (hnd : pots.flatten.Nodup) {ms : List α} (hms : ms ∈ pots) (hne : ms ≠ []) :
    parts.flatten.countP (· ∈ ms) = 1 := by
  induction hparts with
  | nil => exact absurd hms List.not_mem_nil
  | @cons part ms₀ parts rest hpart hrest ih =>
    rw [List.flatten_cons] at hnd
    have hdisj := (List.nodup_append.1 hnd).2.2
    rw [List.flatten_cons, List.countP_append]
    by_cases hlater : ms ∈ rest
    · -- the pot is a later one: the first part's members are not in it
      have hnone : part.countP (· ∈ ms) = 0 := by
        rw [List.countP_eq_zero]
        intro x hx hxms
        exact hdisj x (hpart.1.subset hx) x
          (List.mem_flatten.2 ⟨ms, hlater, by simpa using hxms⟩) rfl
      rw [hnone, ih (List.nodup_append.1 hnd).2.1 hlater]
    · -- the pot is the first one: its part is one of its members, and no later part meets it
      obtain rfl : ms = ms₀ := by simpa [hlater] using hms
      have hone : part.countP (· ∈ ms) = 1 := by
        rw [List.countP_eq_length.2 fun x hx => by simpa using hpart.1.subset hx, hpart.2,
          if_neg hne]
      have hnone : parts.flatten.countP (· ∈ ms) = 0 := by
        rw [List.countP_eq_zero]
        intro x hx hxms
        exact hdisj x (by simpa using hxms) x
          ((flatten_sublist_of_forall₂ (fun _ _ h => h.1) hrest).subset hx) rfl
      rw [hone, hnone]

/-- What the snake draft deals out of the pots into `n` groups. There are `n` groups; the
members, placed pot 1 first, then pots 2, 3 and 4, each in its own order, go the `k`-th to group
`snakeGroup n k`; every member lands in one group; sizes differ by at most one; and when every
pot is empty or holds `n` members, each group takes, pot by pot, one member of each non-empty
pot. -/
structure SnakeDealt (pots : List (List α)) (n : Nat) (groups : List (List α)) : Prop where
  length_eq : groups.length = n
  placed : ∀ g (hg : g < groups.length), groups[g] = placedBy (snakeGroup n)
    (potMembers pots 1 ++ potMembers pots 2 ++ potMembers pots 3 ++ potMembers pots 4) g
  perm : groups.flatten.Perm
    (potMembers pots 1 ++ potMembers pots 2 ++ potMembers pots 3 ++ potMembers pots 4)
  balanced : ∀ xs ∈ groups, ∀ ys ∈ groups, xs.length ≤ ys.length + 1
  one_per_pot : (∀ p ∈ potNumbers, potMembers pots p = [] ∨ (potMembers pots p).length = n) →
    ∀ xs ∈ groups, ∃ parts, xs = parts.flatten ∧
      List.Forall₂ (fun part ms => part.Sublist ms ∧ part.length = if ms = [] then 0 else 1)
        parts (potNumbers.map (potMembers pots))

/-- **The snake draft in closed form.** For every table of pots and at least one group, the
snake draft deals the groups that `SnakeDealt` describes. -/
theorem snake_draft_closed_form (pots : List (List α)) {count : Int} (hc : 1 ≤ count) :
    ∃ groups, distributeSnake pots count = .ok groups ∧ SnakeDealt pots count.toNat groups := by
  obtain ⟨n, rfl⟩ : ∃ n : Nat, count = n := ⟨count.toNat, by omega⟩
  have hn : 0 < n := by omega
  rw [Int.toNat_natCast]
  have hmembers : potNumbers.flatMap (potMembers pots) =
      potMembers pots 1 ++ potMembers pots 2 ++ potMembers pots 3 ++ potMembers pots 4 := by
    simp [potNumbers]
  have hplaced : snakeTo (potNumbers.flatMap (potMembers pots)) n =
      placedBy (snakeGroup n) (potNumbers.flatMap (potMembers pots)) := by
    funext g
    simp only [snakeTo, group_snakeAt hn]
  refine ⟨_, distributeSnake_eq pots hn, ⟨by simp, fun g hg => ?_, ?_, ?_, ?_⟩⟩
  · rw [List.getElem_map, List.getElem_range, hplaced, hmembers]
  · rw [← hmembers, ← List.flatMap_def]
    exact flatMap_snakeTo_perm _ hn
  · intro xs hxs ys hys
    obtain ⟨j, hj, rfl⟩ := List.mem_map.1 hxs
    obtain ⟨k, hk, rfl⟩ := List.mem_map.1 hys
    exact length_snakeTo_le _ (List.mem_range.1 hj) (List.mem_range.1 hk)
  · intro hfull xs hxs
    obtain ⟨g, hg, rfl⟩ := List.mem_map.1 hxs
    obtain ⟨parts, hparts, hall⟩ := snakeFrom_full_parts (List.mem_range.1 hg)
      (potNumbers.map (potMembers pots)) 0 (by simpa using hfull)
    refine ⟨parts, ?_, hall⟩
    rw [snakeTo_eq_snakeFrom, List.flatMap_def, ← hparts, Nat.mul_zero]

theorem snake_draft_two_groups :
    1 ≤ (2 : Int) ∧ ∃ groups, distributeSnake [["a", "b", "c"], ["d", "e"]] 2 = .ok groups ∧
      SnakeDealt [["a", "b", "c"], ["d", "e"]] 2 groups :=
  ⟨by decide, snake_draft_closed_form _ (by decide)⟩

example : distributeSnake [["a", "b", "c"], ["d", "e"]] 2 = .ok [["a", "d", "e"], ["b", "c"]] := by
  decide

/-! ### The strict deal -/

/-- Dealing a pot's members from group `m` on appends member `k - m` to group `k`. -/
theorem getElem?_foldl_addTo (ms : List α) (m : Nat) (groups : Array (List α)) (k : Nat) :
    ((ms.zipIdx m).foldl (fun gs q => addTo gs q.2 q.1) groups)[k]? =
      groups[k]?.map (· ++ (if m ≤ k then ms[k - m]? else none).toList) := by
  induction ms generalizing m groups with
  | nil => simp
  | cons x xs ih =>
    rw [List.zipIdx_cons, List.foldl_cons, ih, getElem?_addTo]
    by_cases hk : m = k
    · subst hk
      simp [Option.map_map, Function.comp_def]
    · by_cases hmk : m + 1 ≤ k
      · have hsub : k - m = k - (m + 1) + 1 := by omega
        simp [hk, hmk, Nat.le_of_succ_le hmk, hsub]
      · have hlt : ¬ m ≤ k := by omega
        simp [hk, hmk, hlt]

/-- A pot dealt strictly is empty or holds one member per group, and group `k` gets its `k`-th
member. -/
theorem strictPot_eq_ok {pots : List (List α)} {n : Nat} {groups res : Array (List α)} {p : Nat}
    (h : strictPot pots n groups p = .ok res) :
    (potMembers pots p = [] ∨ (potMembers pots p).length = n) ∧
      ∀ k : Nat, res[k]? = groups[k]?.map (· ++ ((potMembers pots p)[k]?).toList) := by
  unfold strictPot at h
  by_cases hempty : (potMembers pots p).isEmpty
  · rw [if_pos hempty] at h
    cases h
    have hnil : potMembers pots p = [] := List.isEmpty_iff.1 hempty
    exact ⟨.inl hnil, fun k => by simp [hnil]⟩
  · rw [if_neg hempty] at h
    by_cases hlen : (potMembers pots p).length ≠ n
    · rw [if_pos hlen] at h
      cases h
    · rw [if_neg hlen] at h
      cases h
      exact ⟨.inr (not_not.1 hlen), fun k => by simp [getElem?_foldl_addTo]⟩

/-- The strict deal of pots in turn: every pot is empty or holds one member per group, and
group `k` gets the `k`-th member of each, in pot order. -/
theorem foldlM_strictPot_eq_ok {pots : List (List α)} {n : Nat} :
    ∀ (ps : List Nat) (groups res : Array (List α)),
      ps.foldlM (strictPot pots n) groups = .ok res →
        (∀ p ∈ ps, potMembers pots p = [] ∨ (potMembers pots p).length = n) ∧
          ∀ k : Nat, res[k]? = groups[k]?.map (· ++ ps.filterMap fun p => (potMembers pots p)[k]?)
  | [], groups, res, h => by
    cases h
    simp
  | p :: ps, groups, res, h => by
    rw [List.foldlM_cons] at h
    cases hp : strictPot pots n groups p with
    | error e =>
      rw [hp] at h
      cases h
    | ok mid =>
      rw [hp] at h
      obtain ⟨hsizes, hmid⟩ := strictPot_eq_ok hp
      obtain ⟨hrest, hres⟩ := foldlM_strictPot_eq_ok ps mid res h
      refine ⟨fun q hq => ?_, fun k => ?_⟩
      · rcases List.mem_cons.1 hq with rfl | hq
        · exact hsizes
        · exact hrest q hq
      · rw [hres, hmid, Option.map_map, List.filterMap_cons]
        congr 1
        funext l
        cases (potMembers pots p)[k]? <;> simp

/-- Four pots, read by their numbers, are the four pots. -/
theorem map_potMembers {pots : List (List α)} (h : pots.length = 4) :
    potNumbers.map (potMembers pots) = pots := by
  match pots, h with
  | [_, _, _, _], _ => rfl

theorem flatMap_potMembers {pots : List (List α)} (h : pots.length = 4) :
    potNumbers.flatMap (potMembers pots) = pots.flatten := by
  rw [List.flatMap_def, map_potMembers h]

/-- The strict deal of four pots among `n` groups, when it goes through: every pot is empty or
holds one member per group, and group `k` holds the `k`-th member of each non-empty pot, in pot
order. -/
theorem distributeStrict_eq_ok {pots : List (List α)} (h4 : pots.length = 4) {n : Nat}
    {dealt : List (List α)} (h : distributeStrict pots n = .ok dealt) :
    0 < n ∧ (∀ ms ∈ pots, ms = [] ∨ ms.length = n) ∧
      dealt = (List.range n).map fun k => pots.filterMap (·[k]?) := by
  unfold distributeStrict groupTotal at h
  by_cases hn : (n : Int) < 1
  · rw [if_pos hn] at h
    cases h
  rw [if_neg hn] at h
  simp only [bind, Except.bind, Int.toNat_natCast] at h
  cases hf : potNumbers.foldlM (strictPot pots n) (Array.replicate n []) with
  | error e =>
    rw [hf] at h
    cases h
  | ok res =>
    rw [hf] at h
    cases h
    obtain ⟨hsizes, hres⟩ := foldlM_strictPot_eq_ok potNumbers _ res hf
    refine ⟨by omega, fun ms hms => ?_, ?_⟩
    · -- a pot is the pot of its number
      rw [← map_potMembers h4] at hms
      obtain ⟨p, hp, rfl⟩ := List.mem_map.1 hms
      exact hsizes p hp
    · apply List.ext_getElem?
      intro k
      have hpots : potNumbers.filterMap (fun p => (potMembers pots p)[k]?) =
          pots.filterMap (·[k]?) := by
        conv => rhs; rw [← map_potMembers h4]
        rw [List.filterMap_map]
        rfl
      rw [Array.getElem?_toList, hres, List.getElem?_map, Array.getElem?_replicate, hpots]
      by_cases hk : k < n <;> simp [hk]

theorem filterMap_getElem?_cons (ms : List α) (pots : List (List α)) (k : Nat) :
    (ms :: pots).filterMap (·[k]?) = (ms[k]?).toList ++ pots.filterMap (·[k]?) := by
  rw [List.filterMap_cons]
  cases ms[k]? <;> rfl

/-- Reading a list at every index below a bound past its end gives it back. -/
theorem flatMap_range_getElem? {l : List α} {n : Nat} (h : l.length ≤ n) :
    (List.range n).flatMap (fun k => (l[k]?).toList) = l := by
  induction l generalizing n with
  | nil => simp
  | cons x xs ih =>
    obtain ⟨m, rfl⟩ : ∃ m, n = m + 1 := ⟨n - 1, by simp at h; omega⟩
    rw [List.range_succ_eq_map, List.flatMap_cons, List.flatMap_map]
    simp only [List.getElem?_cons_zero, Option.toList_some, List.getElem?_cons_succ]
    rw [ih (by simpa using h)]
    rfl

/-- The strict deal puts every member of the pots into exactly one group. -/
theorem flatMap_strict_perm {n : Nat} :
    ∀ {pots : List (List α)}, (∀ ms ∈ pots, ms.length ≤ n) →
      ((List.range n).flatMap fun k => pots.filterMap (·[k]?)).Perm pots.flatten
  | [], _ => by simp
  | ms :: pots, h => by
    simp only [filterMap_getElem?_cons, List.flatten_cons]
    refine (List.flatMap_append_perm _ _ _).symm.trans (List.Perm.append ?_ ?_)
    · rw [flatMap_range_getElem? (h ms List.mem_cons_self)]
    · exact flatMap_strict_perm fun ms' hms' => h ms' (List.mem_cons_of_mem _ hms')

/-- With every pot empty or holding one member per group, every group of the strict deal holds
one member of each non-empty pot. -/
theorem length_strict_group {n k : Nat} (hk : k < n) :
    ∀ {pots : List (List α)}, (∀ ms ∈ pots, ms = [] ∨ ms.length = n) →
      (pots.filterMap (·[k]?)).length = (pots.filter fun ms => !ms.isEmpty).length
  | [], _ => rfl
  | ms :: pots, h => by
    rw [filterMap_getElem?_cons, List.length_append, List.filter_cons,
      length_strict_group hk fun ms' hms' => h ms' (List.mem_cons_of_mem _ hms')]
    rcases h ms List.mem_cons_self with rfl | hlen
    · simp
    · have hne : ms ≠ [] := by
        rintro rfl
        simp at hlen
        omega
      simp [hne, List.getElem?_eq_getElem (hlen ▸ hk)]
      omega

/-- Reading every pot at one index takes its members there, pot by pot. -/
theorem filterMap_getElem?_eq_flatten (pots : List (List α)) (k : Nat) :
    pots.filterMap (·[k]?) = (pots.map fun ms => (ms[k]?).toList).flatten := by
  induction pots with
  | nil => rfl
  | cons ms pots ih => rw [filterMap_getElem?_cons, ih, List.map_cons, List.flatten_cons]

/-- With every pot empty or holding one member per group, group `k` of the strict deal takes,
pot by pot, one member of each non-empty pot and none of an empty one. -/
theorem strict_group_parts {n k : Nat} (hk : k < n) :
    ∀ {pots : List (List α)}, (∀ ms ∈ pots, ms = [] ∨ ms.length = n) →
      List.Forall₂ (fun part ms => part.Sublist ms ∧ part.length = if ms = [] then 0 else 1)
        (pots.map fun ms => (ms[k]?).toList) pots
  | [], _ => .nil
  | ms :: pots, h => by
    refine .cons ⟨?_, ?_⟩
      (strict_group_parts hk fun ms' hms' => h ms' (List.mem_cons_of_mem _ hms'))
    · show (ms[k]?).toList.Sublist ms
      cases hx : ms[k]? with
      | none => exact List.nil_sublist _
      | some x => exact List.singleton_sublist.2 (List.mem_of_getElem? hx)
    · show (ms[k]?).toList.length = _
      rcases h ms List.mem_cons_self with rfl | hlen
      · rfl
      · have hne : ms ≠ [] := by
          rintro rfl
          simp at hlen
          omega
        rw [if_neg hne, List.getElem?_eq_getElem (hlen ▸ hk)]
        rfl

/-! ### Either deal -/

section

variable {strict : Bool} {pots : List (List α)} {n : Nat} {dealt : List (List α)}

/-- A deal of four pots that goes through deals `n` groups, the strict one when every pot is
empty or holds one member per group, group `k` taking the `k`-th member of each pot. -/
theorem distributePots_eq_ok (h4 : pots.length = 4) (hn : 0 < n)
    (h : distributePots strict pots n = .ok dealt) :
    dealt.length = n ∧ (strict = true → (∀ ms ∈ pots, ms = [] ∨ ms.length = n) ∧
      dealt = (List.range n).map fun k => pots.filterMap (·[k]?)) ∧
    (strict = false → dealt = (List.range n).map (snakeTo pots.flatten n)) := by
  cases strict with
  | false =>
    rw [distributePots, if_neg Bool.false_ne_true, distributeSnake_eq pots hn,
      flatMap_potMembers h4] at h
    cases h
    simp
  | true =>
    rw [distributePots, if_pos rfl] at h
    obtain ⟨-, hsizes, rfl⟩ := distributeStrict_eq_ok h4 h
    exact ⟨by simp, fun _ => ⟨hsizes, rfl⟩, fun h => Bool.noConfusion h⟩

/-- Either deal puts every member of the pots into exactly one group. -/
theorem flatten_distributePots_perm (h4 : pots.length = 4) (hn : 0 < n)
    (h : distributePots strict pots n = .ok dealt) : dealt.flatten.Perm pots.flatten := by
  obtain ⟨-, hstrict, hsnake⟩ := distributePots_eq_ok h4 hn h
  cases strict with
  | false =>
    rw [hsnake rfl, ← List.flatMap_def]
    exact flatMap_snakeTo_perm _ hn
  | true =>
    obtain ⟨hsizes, rfl⟩ := hstrict rfl
    rw [← List.flatMap_def]
    refine flatMap_strict_perm fun ms hms => ?_
    rcases hsizes ms hms with rfl | h
    · exact Nat.zero_le n
    · exact h.le

/-- The groups of either deal differ in size by at most one. -/
theorem length_distributePots_le (h4 : pots.length = 4) (hn : 0 < n)
    (h : distributePots strict pots n = .ok dealt) {xs ys : List α} (hxs : xs ∈ dealt)
    (hys : ys ∈ dealt) : xs.length ≤ ys.length + 1 := by
  obtain ⟨-, hstrict, hsnake⟩ := distributePots_eq_ok h4 hn h
  cases strict with
  | false =>
    rw [hsnake rfl] at hxs hys
    obtain ⟨j, hj, rfl⟩ := List.mem_map.1 hxs
    obtain ⟨k, hk, rfl⟩ := List.mem_map.1 hys
    exact length_snakeTo_le _ (List.mem_range.1 hj) (List.mem_range.1 hk)
  | true =>
    obtain ⟨hsizes, rfl⟩ := hstrict rfl
    obtain ⟨j, hj, rfl⟩ := List.mem_map.1 hxs
    obtain ⟨k, hk, rfl⟩ := List.mem_map.1 hys
    rw [length_strict_group (List.mem_range.1 hj) hsizes,
      length_strict_group (List.mem_range.1 hk) hsizes]
    exact Nat.le_succ _

/-- When every pot is empty or holds one member per group, and no member is in two places,
every group of either deal holds exactly one member of each non-empty pot. -/
theorem countP_distributePots [DecidableEq α] (h4 : pots.length = 4) (hn : 0 < n)
    (h : distributePots strict pots n = .ok dealt) (hfull : ∀ ms ∈ pots, ms = [] ∨ ms.length = n)
    (hnd : pots.flatten.Nodup) {xs : List α} (hxs : xs ∈ dealt) {ms : List α} (hms : ms ∈ pots)
    (hne : ms ≠ []) : xs.countP (· ∈ ms) = 1 := by
  obtain ⟨-, hstrict, hsnake⟩ := distributePots_eq_ok h4 hn h
  cases strict with
  | false =>
    rw [hsnake rfl] at hxs
    obtain ⟨k, hk, rfl⟩ := List.mem_map.1 hxs
    obtain ⟨parts, hparts, hall⟩ := snakeFrom_full_parts (List.mem_range.1 hk) pots 0 hfull
    rw [snakeTo_eq_snakeFrom, ← Nat.mul_zero n, hparts]
    exact countP_flatten_parts hall hnd hms hne
  | true =>
    obtain ⟨-, rfl⟩ := hstrict rfl
    obtain ⟨k, hk, rfl⟩ := List.mem_map.1 hxs
    rw [filterMap_getElem?_eq_flatten]
    exact countP_flatten_parts (strict_group_parts (List.mem_range.1 hk) hfull) hnd hms hne

end

end TournamentDraw.Draw
