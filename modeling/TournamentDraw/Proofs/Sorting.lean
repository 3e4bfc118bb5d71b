import TournamentDraw.Value.Sort
import Mathlib

/-!
# The sort is stable

`sortWith` keeps the run at the front and inserts every later element by binary search.
Whatever its test answers, it only moves elements about (`sortWith_perm`). When the test
compares keys, `f a < f b` for a key `f` into a linear order, it is the stable sort
(`sortWith_sortsStably`): the keys ascend, and elements of equal key keep their given order.
A stably sorted list is then determined by its keys: it lists the elements of each key in
turn, in increasing key (`SortsStably.eq_flatMap`).
-/

namespace TournamentDraw

variable {α ε : Type} {lt : α → α → Except ε Bool}

section Perm

/-- Inserting puts the element at the place the binary search finds. -/
theorem toList_insertSorted (lt : α → α → Except ε Bool) (xs : Array α) (x : α) :
    (insertSorted lt xs x).map Array.toList =
      (insertionPoint lt x xs (xs.size + 1) 0 xs.size).map fun p =>
        xs.toList.take p ++ x :: xs.toList.drop p := by
  unfold insertSorted
  cases insertionPoint lt x xs (xs.size + 1) 0 xs.size with
  | error e => rfl
  | ok p =>
    have hdrop : (xs.toList.drop p).take (xs.size - p) = xs.toList.drop p :=
      List.take_of_length_le (by simp)
    show Except.ok ((xs.extract 0 p).push x ++ xs.extract p xs.size).toList = Except.ok _
    simp [Array.toList_extract, List.extract, hdrop]

theorem perm_insertSorted {xs ys : Array α} {x : α} (h : insertSorted lt xs x = .ok ys) :
    ys.toList.Perm (x :: xs.toList) := by
  have hmap := toList_insertSorted lt xs x
  rw [h] at hmap
  cases hp : insertionPoint lt x xs (xs.size + 1) 0 xs.size with
  | error e => simp [hp, Except.map] at hmap
  | ok p =>
    simp only [hp, Except.map, Except.ok.injEq] at hmap
    rw [hmap]
    exact List.perm_middle.trans (List.Perm.cons x (by rw [List.take_append_drop]))

theorem perm_foldlM_insertSorted :
    ∀ (rest : List α) (acc ys : Array α), rest.foldlM (insertSorted lt) acc = .ok ys →
      ys.toList.Perm (acc.toList ++ rest)
  | [], acc, ys, h => by
    cases h
    simp
  | x :: rest, acc, ys, h => by
    rw [List.foldlM_cons] at h
    cases hx : insertSorted lt acc x with
    | error e => simp [hx, bind, Except.bind] at h
    | ok acc' =>
      simp only [hx, bind, Except.bind] at h
      refine (perm_foldlM_insertSorted rest acc' ys h).trans ?_
      exact ((perm_insertSorted hx).append_right rest).trans List.perm_middle.symm

/-- **The sort permutes its elements**, whatever its test answers. -/
theorem sortWith_perm {xs ys : List α} (h : sortWith lt xs = .ok ys) : ys.Perm xs := by
  unfold sortWith at h
  match xs, h with
  | [], h => cases h; exact .refl _
  | [a], h => cases h; exact .refl _
  | a :: b :: rest, h =>
    simp only [bind, Except.bind] at h
    cases hd : lt b a with
    | error e => simp [hd] at h
    | ok d =>
      cases hr : runFrom lt d b rest 2 with
      | error e => simp [hd, hr] at h
      | ok run =>
        simp only [hd, hr] at h
        cases hs : ((a :: b :: rest).drop run).foldlM (insertSorted lt)
            (if d then ((a :: b :: rest).take run).reverse
              else (a :: b :: rest).take run).toArray with
        | error e => simp [hs] at h
        | ok sorted =>
          simp only [hs, pure, Except.pure, Except.ok.injEq] at h
          subst h
          have hfront : (if d then ((a :: b :: rest).take run).reverse
              else (a :: b :: rest).take run).Perm ((a :: b :: rest).take run) := by
            split
            · exact List.reverse_perm _
            · exact .refl _
          refine (perm_foldlM_insertSorted _ _ _ hs).trans ?_
          rw [List.toList_toArray]
          exact (hfront.append_right _).trans (by rw [List.take_append_drop])

end Perm

section Key

variable {β : Type} [LinearOrder β] {f : α → β}

/-- `ys` is `xs` sorted by the key `f`: the keys ascend, and the elements of each key stand
in their order in `xs`. -/
def SortsStably (f : α → β) (xs ys : List α) : Prop :=
  ys.Pairwise (fun a b => f a ≤ f b) ∧
    ∀ k, ys.filter (fun a => decide (f a = k)) = xs.filter (fun a => decide (f a = k))

/-- A sorted list with every key above `x`'s after a prefix with no key above it: `x` goes
between the two parts. -/
theorem SortsStably.insert {xs ys : List α} (h : SortsStably f xs ys) {x : α} {p : Nat}
    (hle : ∀ y ∈ ys.take p, f y ≤ f x) (hgt : ∀ y ∈ ys.drop p, f x < f y) :
    SortsStably f (xs ++ [x]) (ys.take p ++ x :: ys.drop p) := by
  obtain ⟨hsorted, hkeys⟩ := h
  constructor
  · refine List.pairwise_append.2 ⟨hsorted.sublist (List.take_sublist p ys), ?_, ?_⟩
    · exact List.pairwise_cons.2
        ⟨fun y hy => le_of_lt (hgt y hy), hsorted.sublist (List.drop_sublist p ys)⟩
    · intro a ha b hb
      rcases List.mem_cons.1 hb with rfl | hb
      · exact hle a ha
      · exact le_of_lt (lt_of_le_of_lt (hle a ha) (hgt b hb))
  · intro k
    have hys := List.take_append_drop p ys
    by_cases hk : f x = k
    · -- nothing after the insertion point has the key of `x`
      have hnone : (ys.drop p).filter (fun a => decide (f a = k)) = [] :=
        List.filter_eq_nil_iff.2 fun y hy => by
          have := hgt y hy
          rw [hk] at this
          simpa using ne_of_gt this
      have htake : (ys.take p).filter (fun a => decide (f a = k)) =
          ys.filter (fun a => decide (f a = k)) := by
        have := congrArg (List.filter fun a => decide (f a = k)) hys
        rwa [List.filter_append, hnone, List.append_nil] at this
      rw [List.filter_append, List.filter_cons, if_pos (by simpa using hk), hnone, htake,
        hkeys, List.filter_append, List.filter_cons, List.filter_nil, if_pos (by simpa using hk)]
    · rw [List.filter_append, List.filter_cons, if_neg (by simpa using hk), ← List.filter_append,
        hys, hkeys, List.filter_append, List.filter_cons, List.filter_nil,
        if_neg (by simpa using hk), List.append_nil]

variable {U : List α} (hlt : ∀ a ∈ U, ∀ b ∈ U, lt a b = .ok (decide (f a < f b)))
include hlt

/-- The binary search ends between the elements not above `x` and those above it, when the
range it searches is sorted and what lies outside it is already on its side. -/
theorem insertionPoint_spec {xs : Array α} (hs : xs.toList.Pairwise (fun a b => f a ≤ f b))
    (hU : ∀ y ∈ xs.toList, y ∈ U) {x : α} (hx : x ∈ U) :
    ∀ (fuel lo hi : Nat), lo ≤ hi → hi ≤ xs.size → hi - lo < fuel →
      (∀ y ∈ xs.toList.take lo, f y ≤ f x) → (∀ y ∈ xs.toList.drop hi, f x < f y) →
      ∃ p, insertionPoint lt x xs fuel lo hi = .ok p ∧
        (∀ y ∈ xs.toList.take p, f y ≤ f x) ∧ (∀ y ∈ xs.toList.drop p, f x < f y) := by
  have hmono : ∀ i j (hi : i < xs.toList.length) (hj : j < xs.toList.length), i ≤ j →
      f xs.toList[i] ≤ f xs.toList[j] := fun i j hi hj hij => by
    rcases Nat.lt_or_eq_of_le hij with hlt' | rfl
    · exact List.pairwise_iff_getElem.1 hs i j hi hj hlt'
    · exact le_refl _
  intro fuel
  induction fuel with
  | zero => intro lo hi _ _ hfuel; omega
  | succ fuel ih =>
    intro lo hi hlohi hhi hfuel hlo hhi'
    unfold insertionPoint
    by_cases hlh : lo < hi
    · rw [if_pos hlh]
      -- the middle of the range holds an element; the search goes to the half that `x` is in
      have hmid : lo + (hi - lo) / 2 < xs.toList.length := by simp; omega
      dsimp only
      rw [← Array.getElem?_toList, List.getElem?_eq_getElem hmid]
      dsimp only
      rw [hlt x hx _ (hU _ (List.getElem_mem hmid))]
      simp only [bind, Except.bind]
      by_cases hx : f x < f xs.toList[lo + (hi - lo) / 2]
      · rw [if_pos (by simpa using hx)]
        refine ih lo (lo + (hi - lo) / 2) (by omega) (by simp at hmid; omega) (by omega) hlo ?_
        intro y hy
        obtain ⟨j, hj, rfl⟩ := List.mem_drop_iff_getElem.1 hy
        exact lt_of_lt_of_le hx (hmono _ (lo + (hi - lo) / 2 + j) hmid (by omega) (by omega))
      · rw [if_neg (by simpa using hx)]
        refine ih (lo + (hi - lo) / 2 + 1) hi (by omega) hhi (by omega) ?_ hhi'
        intro y hy
        obtain ⟨j, hj, rfl⟩ := List.mem_take_iff_getElem.1 hy
        have hj' : j ≤ lo + (hi - lo) / 2 := by simp at hj; omega
        exact le_trans (hmono _ _ _ hmid hj') (le_of_not_gt hx)
    · rw [if_neg hlh]
      have hlo' : lo = hi := by omega
      subst hlo'
      exact ⟨lo, rfl, hlo, hhi'⟩

/-- Inserting into a stably sorted array keeps it stably sorted. -/
theorem insertSorted_sortsStably {xs : List α} {ys : Array α} (h : SortsStably f xs ys.toList)
    (hU : ∀ y ∈ ys.toList, y ∈ U) {x : α} (hx : x ∈ U) :
    ∃ zs, insertSorted lt ys x = .ok zs ∧ SortsStably f (xs ++ [x]) zs.toList := by
  obtain ⟨p, hp, hle, hgt⟩ := insertionPoint_spec hlt h.1 hU hx (ys.size + 1) 0 ys.size
    (Nat.zero_le _) (Nat.le_refl _) (by omega) (fun y hy => by simp at hy)
    (fun y hy => by simp [← Array.length_toList] at hy)
  have hmap := toList_insertSorted lt ys x
  rw [hp] at hmap
  cases hz : insertSorted lt ys x with
  | error e => simp [hz, Except.map] at hmap
  | ok zs =>
    simp only [hz, Except.map, Except.ok.injEq] at hmap
    exact ⟨zs, rfl, hmap ▸ h.insert hle hgt⟩

theorem foldlM_insertSorted_sortsStably :
    ∀ (rest : List α) (xs : List α) (acc : Array α), (∀ y ∈ rest, y ∈ U) →
      (∀ y ∈ acc.toList, y ∈ U) → SortsStably f xs acc.toList →
      ∃ ys, rest.foldlM (insertSorted lt) acc = .ok ys ∧ SortsStably f (xs ++ rest) ys.toList
  | [], xs, acc, _, _, h => ⟨acc, rfl, by simpa using h⟩
  | x :: rest, xs, acc, hrest, hacc, h => by
    obtain ⟨acc', hins, h'⟩ :=
      insertSorted_sortsStably hlt h hacc (hrest x List.mem_cons_self)
    have hacc' : ∀ y ∈ acc'.toList, y ∈ U := fun y hy => by
      rcases List.mem_cons.1 ((perm_insertSorted hins).mem_iff.1 hy) with rfl | hy
      · exact hrest y List.mem_cons_self
      · exact hacc y hy
    obtain ⟨ys, hys, h''⟩ := foldlM_insertSorted_sortsStably rest (xs ++ [x]) acc'
      (fun y hy => hrest y (List.mem_cons_of_mem x hy)) hacc' h'
    refine ⟨ys, ?_, by simpa using h''⟩
    rw [List.foldlM_cons, hins]
    exact hys

omit hlt in
/-- Consecutive elements continue a run: the later one is not below the earlier one in an
ascending run, and strictly below it in a descending one. -/
def Continues (f : α → β) (descending : Bool) (a b : α) : Prop :=
  (decide (f b < f a) == descending) = true

omit hlt in
theorem Continues.trans {descending : Bool} {a b c : α} (hab : Continues f descending a b)
    (hbc : Continues f descending b c) : Continues f descending a c := by
  unfold Continues at *
  cases descending
  · simp only [beq_false, Bool.not_eq_true', decide_eq_false_iff_not, not_lt] at *
    exact le_trans hab hbc
  · simp only [beq_true, decide_eq_true_eq] at *
    exact lt_trans hbc hab

/-- The run after `prev` counted from `n`: what it takes continues the run from `prev`. -/
theorem runFrom_spec (descending : Bool) :
    ∀ (prev : α) (rest : List α) (n : Nat), prev ∈ U → (∀ y ∈ rest, y ∈ U) →
      ∃ m, runFrom lt descending prev rest n = .ok (n + m) ∧
        (prev :: rest.take m).Pairwise (Continues f descending)
  | prev, [], n, _, _ => ⟨0, rfl, by simp⟩
  | prev, x :: rest, n, hprev, hrest => by
    have hxU := hrest x List.mem_cons_self
    by_cases hc : Continues f descending prev x
    · obtain ⟨m, hm, hpair⟩ := runFrom_spec descending x rest (n + 1) hxU
        fun y hy => hrest y (List.mem_cons_of_mem x hy)
      refine ⟨m + 1, ?_, ?_⟩
      · unfold runFrom
        simp only [hlt x hxU prev hprev, bind, Except.bind]
        rw [if_pos (show (decide (f x < f prev) == descending) = true from hc), hm, Nat.add_assoc,
          Nat.add_comm 1 m]
      · rw [List.take_succ_cons]
        refine List.pairwise_cons.2 ⟨fun y hy => ?_, hpair⟩
        rcases List.mem_cons.1 hy with rfl | hy
        · exact hc
        · exact hc.trans (List.rel_of_pairwise_cons hpair hy)
    · refine ⟨0, ?_, by simp⟩
      unfold runFrom
      simp only [hlt x hxU prev hprev, bind, Except.bind]
      rw [if_neg (show ¬(decide (f x < f prev) == descending) = true from hc)]
      rfl

omit hlt in
/-- The front run, reversed when it descends, is stably sorted on its own. -/
theorem sortsStably_front {descending : Bool} {front : List α}
    (h : front.Pairwise (Continues f descending)) :
    SortsStably f front (if descending then front.reverse else front) := by
  cases descending
  · refine ⟨h.imp fun {a b} hab => ?_, fun k => rfl⟩
    simpa [Continues] using hab
  · have hdesc : front.Pairwise (fun a b => f b < f a) := h.imp fun {a b} hab => by
      simpa [Continues] using hab
    refine ⟨List.pairwise_reverse.2 (hdesc.imp le_of_lt), fun k => ?_⟩
    -- a strictly descending run holds each key once at most
    rw [if_pos rfl, List.filter_reverse]
    have hk : (front.filter fun a => decide (f a = k)).Pairwise (fun a b => f b < f a) :=
      hdesc.filter _
    match hl : front.filter fun a => decide (f a = k), hk with
    | [], _ => rfl
    | [a], _ => rfl
    | a :: b :: _, hk =>
      have ha : f a = k := by
        have := List.mem_filter.1 (hl ▸ List.mem_cons_self : a ∈ front.filter _)
        simpa using this.2
      have hb : f b = k := by
        have := List.mem_filter.1
          (hl ▸ List.mem_cons_of_mem a List.mem_cons_self : b ∈ front.filter _)
        simpa using this.2
      have := List.rel_of_pairwise_cons hk List.mem_cons_self
      rw [ha, hb] at this
      exact absurd this (lt_irrefl k)

omit hlt in
/-- **The sort is stable** when its test compares keys: it never refuses, the keys of what it
answers ascend, and elements of equal key keep their order. -/
theorem sortWith_sortsStably (xs : List α)
    (hlt : ∀ a ∈ xs, ∀ b ∈ xs, lt a b = .ok (decide (f a < f b))) :
    ∃ ys, sortWith lt xs = .ok ys ∧ SortsStably f xs ys := by
  match xs with
  | [] => exact ⟨[], rfl, List.Pairwise.nil, fun _ => rfl⟩
  | [a] => exact ⟨[a], rfl, List.pairwise_singleton _ a, fun _ => rfl⟩
  | a :: b :: rest =>
    obtain ⟨d, hd⟩ : ∃ d, d = decide (f b < f a) := ⟨_, rfl⟩
    have hrestU : ∀ y ∈ rest, y ∈ a :: b :: rest := fun y hy =>
      List.mem_cons_of_mem a (List.mem_cons_of_mem b hy)
    obtain ⟨m, hm, hrun⟩ := runFrom_spec hlt d b rest 2
      (List.mem_cons_of_mem a List.mem_cons_self) hrestU
    have hfront : (a :: b :: rest.take m).Pairwise (Continues f d) := by
      refine List.pairwise_cons.2 ⟨fun y hy => ?_, hrun⟩
      have hab : Continues f d a b := by simp [Continues, hd]
      rcases List.mem_cons.1 hy with rfl | hy
      · exact hab
      · exact hab.trans (List.rel_of_pairwise_cons hrun hy)
    obtain ⟨ys, hys, hsorted⟩ := foldlM_insertSorted_sortsStably hlt (rest.drop m)
      (a :: b :: rest.take m)
      (if d then (a :: b :: rest.take m).reverse else a :: b :: rest.take m).toArray
      (fun y hy => hrestU y (List.mem_of_mem_drop hy))
      (fun y hy => by
        rw [List.toList_toArray] at hy
        have hy' : y ∈ a :: b :: rest.take m := by
          split at hy
          · exact List.mem_reverse.1 hy
          · exact hy
        exact (((List.take_sublist m rest).cons_cons b).cons_cons a).subset hy')
      (by rw [List.toList_toArray]; exact sortsStably_front hfront)
    refine ⟨ys.toList, ?_, by
      rwa [List.cons_append, List.cons_append, List.take_append_drop] at hsorted⟩
    have htake : (a :: b :: rest).take (2 + m) = a :: b :: rest.take m := by
      rw [Nat.add_comm, List.take_succ_cons, List.take_succ_cons]
    have hdrop : (a :: b :: rest).drop (2 + m) = rest.drop m := by
      rw [Nat.add_comm, List.drop_succ_cons, List.drop_succ_cons]
    unfold sortWith
    simp only [bind, Except.bind]
    rw [hlt b (List.mem_cons_of_mem a List.mem_cons_self) a List.mem_cons_self]
    dsimp only
    rw [← hd, hm]
    dsimp only
    rw [htake, hdrop, hys]
    rfl

omit hlt in
/-- A sorted list whose keys are at least `k` starts with its elements of key `k`. -/
theorem eq_filter_append_filter {k : β} :
    ∀ {ys : List α}, ys.Pairwise (fun a b => f a ≤ f b) → (∀ y ∈ ys, k ≤ f y) →
      ys = ys.filter (fun a => decide (f a = k)) ++ ys.filter (fun a => !decide (f a = k))
  | [], _, _ => rfl
  | y :: ys, hs, hk => by
    have ih := eq_filter_append_filter (List.pairwise_cons.1 hs).2
      fun z hz => hk z (List.mem_cons_of_mem y hz)
    by_cases hy : f y = k
    · simp only [List.filter_cons, hy, decide_true, if_true, Bool.not_true, Bool.false_eq_true,
        if_false, List.cons_append]
      exact congrArg (y :: ·) ih
    · -- every later key is at least `f y`, which is above `k`
      have hgt : k < f y := lt_of_le_of_ne (hk y List.mem_cons_self) (Ne.symm hy)
      have hnone : ys.filter (fun a => decide (f a = k)) = [] := List.filter_eq_nil_iff.2
        fun z hz => by
          have := lt_of_lt_of_le hgt (List.rel_of_pairwise_cons hs hz)
          simpa using ne_of_gt this
      simp only [List.filter_cons, hy, decide_false, if_false, Bool.not_false, if_true, hnone,
        List.nil_append, Bool.false_eq_true]
      rw [List.filter_eq_self.2 fun z hz => by
        have := lt_of_lt_of_le hgt (List.rel_of_pairwise_cons hs hz)
        simpa using ne_of_gt this]

omit hlt in
/-- A sorted list whose keys lie in a strictly increasing list of keys lists the elements of
each key in turn. -/
theorem eq_flatMap_filter_of_pairwise :
    ∀ {L : List β} {ys : List α}, L.Pairwise (· < ·) →
      ys.Pairwise (fun a b => f a ≤ f b) → (∀ y ∈ ys, f y ∈ L) →
      ys = L.flatMap fun k => ys.filter fun a => decide (f a = k)
  | [], ys, _, _, hkeys => by
    cases ys with
    | nil => rfl
    | cons y ys => exact absurd (hkeys y List.mem_cons_self) (List.not_mem_nil)
  | k :: L, ys, hL, hs, hkeys => by
    obtain ⟨hkL, hL'⟩ := List.pairwise_cons.1 hL
    -- the elements of key `k` come first, the rest have their keys in `L`
    have hmin : ∀ y ∈ ys, k ≤ f y := fun y hy => by
      rcases List.mem_cons.1 (hkeys y hy) with h | h
      · exact le_of_eq h.symm
      · exact le_of_lt (hkL _ h)
    have hrest := eq_flatMap_filter_of_pairwise hL' (hs.filter (fun a => !decide (f a = k)))
      fun y hy => by
        obtain ⟨hy, hne⟩ := List.mem_filter.1 hy
        rcases List.mem_cons.1 (hkeys y hy) with h | h
        · simp [h] at hne
        · exact h
    have hsame : ∀ k' ∈ L, (ys.filter fun a => !decide (f a = k)).filter
        (fun a => decide (f a = k')) = ys.filter fun a => decide (f a = k') := fun k' hk' => by
      rw [List.filter_filter]
      refine List.filter_congr fun y _ => ?_
      by_cases hy : f y = k'
      · have : k' ≠ k := ne_of_gt (hkL k' hk')
        simp [hy, this]
      · simp [hy]
    rw [List.flatMap_cons]
    calc ys = ys.filter (fun a => decide (f a = k)) ++ ys.filter (fun a => !decide (f a = k)) :=
          eq_filter_append_filter hs hmin
      _ = _ := by
          rw [hrest, List.flatMap_def, List.flatMap_def, List.map_congr_left hsame]

omit hlt in
/-- **A stably sorted list is its key classes in increasing key**: for keys drawn from a
strictly increasing list, the elements of the first key in their given order, then those of
the next, and so on. -/
theorem SortsStably.eq_flatMap {xs ys : List α} (h : SortsStably f xs ys) {L : List β}
    (hL : L.Pairwise (· < ·)) (hkeys : ∀ x ∈ xs, f x ∈ L) :
    ys = L.flatMap fun k => xs.filter fun a => decide (f a = k) := by
  have hys : ∀ y ∈ ys, f y ∈ L := fun y hy => by
    have : y ∈ ys.filter fun a => decide (f a = f y) := List.mem_filter.2 ⟨hy, by simp⟩
    rw [h.2] at this
    exact hkeys y (List.mem_filter.1 this).1
  rw [eq_flatMap_filter_of_pairwise hL h.1 hys, List.flatMap_def, List.flatMap_def,
    List.map_congr_left fun k _ => h.2 k]

end Key

end TournamentDraw
