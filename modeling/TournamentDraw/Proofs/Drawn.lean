import TournamentDraw.Proofs.Transaction

/-!
# What a draw writes

Both draws end the same way: they delete the tournament's groups, take every group letter of
its registrations away, write the dealt groups `A, B, …` with places `1, 2, …` and give each
dealt team its group's letter (`Store.writeGroups`), and mark the tournament drawn. This
module reads that store back: the tournament's groups are the dealt ones in order, and when
the dealt teams are distinct, every registration of the tournament holds the letter of the
group it was dealt to, or none. Rows of other tournaments are left alone.
-/

namespace TournamentDraw

namespace Registration

/-- The letters a list of groups gives, each group a list of ids and a letter: a registration
in one of them takes its letter, a later group overriding an earlier one. -/
def relabel (r : Registration) (gs : List (List String × String)) : Registration :=
  gs.foldl (fun r g => if r.id ∈ g.1 then { r with group := some g.2 } else r) r

@[simp] theorem relabel_nil (r : Registration) : r.relabel [] = r := rfl

theorem relabel_cons (r : Registration) (g : List String × String)
    (gs : List (List String × String)) :
    r.relabel (g :: gs) =
      (if r.id ∈ g.1 then { r with group := some g.2 } else r).relabel gs := rfl

theorem relabel_append (r : Registration) (gs hs : List (List String × String)) :
    r.relabel (gs ++ hs) = (r.relabel gs).relabel hs := by
  simp only [relabel, List.foldl_append]

/-- Relabelling changes the group letter only. -/
theorem relabel_eq (r : Registration) (gs : List (List String × String)) :
    r.relabel gs = { r with group := (r.relabel gs).group } := by
  induction gs generalizing r with
  | nil => rfl
  | cons g gs ih =>
    rw [relabel_cons, ih]
    split <;> rfl

@[simp] theorem id_relabel (r : Registration) (gs : List (List String × String)) :
    (r.relabel gs).id = r.id := by
  rw [relabel_eq]

@[simp] theorem tournament_relabel (r : Registration) (gs : List (List String × String)) :
    (r.relabel gs).tournament = r.tournament := by
  rw [relabel_eq]

@[simp] theorem status_relabel (r : Registration) (gs : List (List String × String)) :
    (r.relabel gs).status = r.status := by
  rw [relabel_eq]

@[simp] theorem stamp_relabel (r : Registration) (gs : List (List String × String)) :
    (r.relabel gs).stamp = r.stamp := by
  rw [relabel_eq]

/-- A registration in none of the groups keeps its letter. -/
theorem relabel_of_not_mem {r : Registration} {gs : List (List String × String)}
    (h : ∀ g ∈ gs, r.id ∉ g.1) : r.relabel gs = r := by
  induction gs generalizing r with
  | nil => rfl
  | cons g gs ih =>
    rw [relabel_cons, if_neg (h g (by simp))]
    exact ih fun g' hg' => h g' (by simp [hg'])

/-- When no id is in two of the groups, a registration in one of them holds its letter. -/
theorem group_relabel_of_mem {r : Registration} {gs : List (List String × String)}
    (hd : gs.Pairwise fun a b => ∀ x ∈ a.1, x ∉ b.1) {g : List String × String} (hg : g ∈ gs)
    (hr : r.id ∈ g.1) : (r.relabel gs).group = some g.2 := by
  induction gs generalizing r with
  | nil => cases hg
  | cons g' gs ih =>
    rw [List.pairwise_cons] at hd
    rw [relabel_cons]
    rcases List.mem_cons.1 hg with rfl | hg
    · -- the group it is in comes first: no later group names it
      rw [if_pos hr, relabel_of_not_mem]
      intro h hh
      exact hd.1 h hh r.id hr
    · split <;> exact ih hd.2 hg (by simpa using hr)

end Registration

/-- What a group shows: its tournament, letter, place and teams. -/
def Group.shown (g : Group) : String × String × Value × List String :=
  (g.tournament, g.letter, g.order, g.teams)

namespace Store

variable (s : Store) (tid : String)

@[simp] theorem groups_deleteGroups :
    (s.deleteGroups tid).tables.groups = s.tables.groups.filter (·.tournament != tid) := rfl

@[simp] theorem registrations_deleteGroups :
    (s.deleteGroups tid).tables.registrations = s.tables.registrations := rfl

@[simp] theorem tournaments_deleteGroups :
    (s.deleteGroups tid).tables.tournaments = s.tables.tournaments := rfl

@[simp] theorem groups_clearGroupLetters :
    (s.clearGroupLetters tid).tables.groups = s.tables.groups := rfl

@[simp] theorem registrations_clearGroupLetters :
    (s.clearGroupLetters tid).tables.registrations = s.tables.registrations.map fun r =>
      if r.tournament = tid then { r with group := none } else r := rfl

@[simp] theorem tournaments_clearGroupLetters :
    (s.clearGroupLetters tid).tables.tournaments = s.tables.tournaments := rfl

@[simp] theorem groups_modifyTournament (f : Tournament → Tournament) :
    (s.modifyTournament tid f).tables.groups = s.tables.groups := rfl

@[simp] theorem registrations_modifyTournament (f : Tournament → Tournament) :
    (s.modifyTournament tid f).tables.registrations = s.tables.registrations := rfl

/-- The tournament after a change that keeps its id is the changed one. -/
theorem tournament?_modifyTournament {f : Tournament → Tournament} (hf : ∀ t, (f t).id = t.id) :
    (s.modifyTournament tid f).tournament? tid = (s.tournament? tid).map f := by
  simp only [tournament?, modifyTournament, List.find?_map]
  -- the changed tournament is still found by its id, and no other is
  have hp : ((fun x : Tournament => x.id == tid) ∘ fun t => if t.id = tid then f t else t) =
      fun x => x.id == tid := by
    funext t
    by_cases ht : t.id = tid <;> simp [ht, hf]
  rw [hp]
  cases h : s.tables.tournaments.find? (fun x => x.id == tid) with
  | none => rfl
  | some t =>
    have ht : t.id = tid := by simpa using List.find?_some h
    simp [ht]

@[simp] theorem registrations_assignLetter (ids : List String) (letter : String) :
    (s.assignLetter ids letter).tables.registrations = s.tables.registrations.map fun r =>
      r.relabel [(ids, letter)] := by
  induction ids generalizing s with
  | nil =>
    simp only [assignLetter, List.foldl_nil, List.not_mem_nil, Registration.relabel_cons,
      if_false, Registration.relabel_nil, List.map_id']
  | cons rid ids ih =>
    simp only [assignLetter, List.foldl_cons] at ih ⊢
    rw [ih]
    simp only [modifyRegistration, List.map_map]
    apply List.map_congr_left
    intro r _
    simp only [Function.comp, Registration.relabel_cons, Registration.relabel_nil,
      List.mem_cons]
    by_cases h : r.id = rid
    · simp [h]
    · by_cases h' : r.id ∈ ids <;> simp [h, h']

@[simp] theorem groups_assignLetter (ids : List String) (letter : String) :
    (s.assignLetter ids letter).tables.groups = s.tables.groups := by
  induction ids generalizing s with
  | nil => rfl
  | cons rid ids ih => exact ih _

@[simp] theorem tournaments_assignLetter (ids : List String) (letter : String) :
    (s.assignLetter ids letter).tables.tournaments = s.tables.tournaments := by
  induction ids generalizing s with
  | nil => rfl
  | cons rid ids ih => exact ih _

@[simp] theorem pots_assignLetter (ids : List String) (letter : String) :
    (s.assignLetter ids letter).tables.pots = s.tables.pots := by
  induction ids generalizing s with
  | nil => rfl
  | cons rid ids ih => exact ih _

@[simp] theorem counters_assignLetter (ids : List String) (letter : String) :
    (s.assignLetter ids letter).counters = s.counters := by
  induction ids generalizing s with
  | nil => rfl
  | cons rid ids ih => exact ih _

/-- The group one written group adds: its letter and place come from its index. -/
def dealtGroup (acc : List Group × Store) (x : List String × Nat) : Group :=
  (acc.2.addGroup tid (Draw.groupLetter x.2) x.1 (.int (x.2 + 1))).1

theorem writeGroup_eq (acc : List Group × Store) (x : List String × Nat) :
    writeGroup tid acc x = (acc.1 ++ [dealtGroup tid acc x],
      ((acc.2.addGroup tid (Draw.groupLetter x.2) x.1 (.int (x.2 + 1))).2).assignLetter x.1
        (Draw.groupLetter x.2)) := rfl

theorem shown_dealtGroup (acc : List Group × Store) (x : List String × Nat) :
    Group.shown (dealtGroup tid acc x) = (tid, Draw.groupLetter x.2, .int (x.2 + 1), x.1) := rfl

/-- Writing groups appends them to the group table and relabels their teams; the other
tables stay. -/
theorem foldl_writeGroup (xs : List (List String × Nat)) (acc : List Group) :
    let w := xs.foldl (writeGroup tid) (acc, s)
    w.2.tables.groups = s.tables.groups ++ w.1.drop acc.length ∧
    acc <+: w.1 ∧
    (w.1.drop acc.length).map Group.shown =
      xs.map (fun x => (tid, Draw.groupLetter x.2, Value.int (x.2 + 1), x.1)) ∧
    w.2.tables.registrations = s.tables.registrations.map
      (·.relabel (xs.map fun x => (x.1, Draw.groupLetter x.2))) ∧
    w.2.tables.tournaments = s.tables.tournaments := by
  induction xs generalizing acc s with
  | nil => simp
  | cons x xs ih =>
    obtain ⟨hg, hpre, hshown, hregs, htour⟩ := ih (writeGroup tid (acc, s) x).2
      (writeGroup tid (acc, s) x).1
    simp only [List.foldl_cons]
    rw [writeGroup_eq] at hg hpre hshown hregs htour ⊢
    simp only [List.length_append, List.length_singleton] at hg hshown
    obtain ⟨rest, hrest⟩ := hpre
    refine ⟨?_, ⟨[dealtGroup tid (acc, s) x] ++ rest, by simpa using hrest⟩, ?_, ?_, ?_⟩
    · rw [hg, ← hrest]
      simp [addGroup, insertGroup, groupNumber, tick, dealtGroup]
    · rw [← hrest] at hshown ⊢
      simp only [List.drop_left', List.drop_append, List.length_append, List.length_singleton]
        at hshown ⊢
      simp [hshown, shown_dealtGroup]
    · rw [hregs]
      simp [addGroup, insertGroup, groupNumber, tick, List.map_map, Function.comp,
        ← Registration.relabel_append]
    · rw [htour]
      simp [addGroup, insertGroup, groupNumber, tick]

/-- The store a draw leaves: the tournament's groups deleted and its registrations' letters
taken away, the dealt groups written, and the tournament changed by `f`. -/
def afterDraw (dealt : List (List String)) (f : Tournament → Tournament) : Store :=
  (((s.deleteGroups tid).clearGroupLetters tid).writeGroups tid dealt).2.modifyTournament tid f

/-- The groups and letters a deal gives: each dealt list of teams with its letter. -/
def lettered (dealt : List (List String)) : List (List String × String) :=
  dealt.zipIdx.map fun x => (x.1, Draw.groupLetter x.2)

variable {s tid}

theorem registrations_afterDraw (dealt : List (List String)) (f : Tournament → Tournament) :
    (s.afterDraw tid dealt f).tables.registrations = s.tables.registrations.map fun r =>
      (if r.tournament = tid then { r with group := none } else r).relabel (lettered dealt) := by
  obtain ⟨-, -, -, hregs, -⟩ := foldl_writeGroup ((s.deleteGroups tid).clearGroupLetters tid) tid
    dealt.zipIdx []
  simp only [afterDraw, writeGroups, registrations_modifyTournament, hregs,
    registrations_clearGroupLetters, registrations_deleteGroups, List.map_map, lettered]
  rfl

theorem tournament?_afterDraw (dealt : List (List String)) {f : Tournament → Tournament}
    (hf : ∀ t, (f t).id = t.id) :
    (s.afterDraw tid dealt f).tournament? tid = (s.tournament? tid).map f := by
  obtain ⟨-, -, -, -, htour⟩ := foldl_writeGroup ((s.deleteGroups tid).clearGroupLetters tid) tid
    dealt.zipIdx []
  rw [afterDraw, tournament?_modifyTournament _ _ hf]
  simp only [tournament?, writeGroups, htour, tournaments_clearGroupLetters,
    tournaments_deleteGroups]

end Store

namespace Value

theorem cellCompare_int (a b : Int) : cellCompare (.int a) (.int b) = compare a b := by
  simp [cellCompare, cellRank, numberCmp?, asExtended?, Extended.cmp]

end Value

/-- Groups placed `1, 2, …` in turn are in display order. -/
theorem Group.pairwise_before {gs : List Group}
    (h : gs.map (·.order) = (List.range gs.length).map fun k : Nat => Value.int ((k : Int) + 1)) :
    gs.Pairwise fun a b => Group.before a b = true := by
  have hr : ((List.range gs.length).map fun k : Nat => Value.int ((k : Int) + 1)).Pairwise
      (fun x y => ∃ j k : Nat, j < k ∧ x = .int (j + 1) ∧ y = .int (k + 1)) := by
    rw [List.pairwise_map]
    exact (List.pairwise_lt_range).imp fun {j k} hjk => ⟨j, k, hjk, rfl, rfl⟩
  rw [← h, List.pairwise_map] at hr
  refine hr.imp fun {a b} ⟨j, k, hjk, ha, hb⟩ => ?_
  have hlt : compare ((j : Int) + 1) ((k : Int) + 1) = .lt := by
    rw [Int.compare_eq_lt]
    omega
  simp [Group.before, ha, hb, Value.cellCompare_int, hlt]

namespace Store

variable {s : Store} {tid : String}

/-- After a draw the tournament's groups are the dealt ones, in order: letters `A, B, …`,
places `1, 2, …`, and the dealt teams. -/
theorem groupsOf_afterDraw (dealt : List (List String)) (f : Tournament → Tournament) :
    ((s.afterDraw tid dealt f).groupsOf tid).map Group.shown =
      dealt.zipIdx.map fun x => (tid, Draw.groupLetter x.2, Value.int (x.2 + 1), x.1) := by
  obtain ⟨hgroups, -, hshown, -, -⟩ :=
    foldl_writeGroup ((s.deleteGroups tid).clearGroupLetters tid) tid dealt.zipIdx []
  simp only [List.length_nil, List.drop_zero] at hgroups hshown
  set news := (dealt.zipIdx.foldl (writeGroup tid) ([], (s.deleteGroups tid).clearGroupLetters tid)).1
  -- every written group belongs to the tournament, and none of the kept ones does
  have hnews : ∀ g ∈ news, g.tournament = tid := by
    intro g hg
    have hmem : g.shown ∈ news.map Group.shown := List.mem_map_of_mem hg
    rw [hshown] at hmem
    obtain ⟨x, -, hx⟩ := List.mem_map.1 hmem
    exact (congrArg Prod.fst hx).symm
  have hfilter : ((s.afterDraw tid dealt f).tables.groups.filter (·.tournament == tid)) = news := by
    simp only [afterDraw, writeGroups, groups_modifyTournament, hgroups, groups_clearGroupLetters,
      groups_deleteGroups, List.filter_append, List.filter_filter]
    rw [List.filter_eq_nil_iff.2 (by intro g _; simp), List.filter_eq_self.2 (by simpa using hnews)]
    rfl
  have horder : news.map (·.order) =
      (List.range news.length).map fun k : Nat => Value.int ((k : Int) + 1) := by
    have := congrArg (List.map fun x : String × String × Value × List String => x.2.2.1) hshown
    simp only [List.map_map] at this
    have hlen : news.length = dealt.length := by simpa using congrArg List.length hshown
    rw [show news.map (·.order) = news.map ((fun x : String × String × Value × List String =>
      x.2.2.1) ∘ Group.shown) from rfl, this, hlen]
    have hsnd := List.zipIdx_map_snd 0 dealt
    rw [← List.range_eq_range'] at hsnd
    rw [← hsnd, List.map_map]
    rfl
  rw [groupsOf, hfilter, List.mergeSort_of_pairwise (Group.pairwise_before horder), hshown]

/-- A tournament's groups as a draw leaves them, for dealt lists of teams: the groups `A, B, …`
in order, with places `1, 2, …` and the dealt teams; a registration dealt to a group holds its
letter, and every other registration of the tournament holds none. -/
structure Dealt (s : Store) (tid : String) (dealt : List (List String)) : Prop where
  groups : ((s.groupsOf tid).map fun g => (g.letter, g.order, g.teams)) =
    dealt.zipIdx.map fun x => (Draw.groupLetter x.2, Value.int (x.2 + 1), x.1)
  member : ∀ r ∈ s.tables.registrations, ∀ g ∈ s.groupsOf tid, r.id ∈ g.teams →
    r.group = some g.letter
  other : ∀ r ∈ s.tables.registrations, r.tournament = tid →
    (∀ g ∈ s.groupsOf tid, r.id ∉ g.teams) → r.group = none

theorem pairwise_lettered {dealt : List (List String)} (hd : dealt.flatten.Nodup) :
    (lettered dealt).Pairwise fun a b => ∀ x ∈ a.1, x ∉ b.1 := by
  have hdis := (List.nodup_flatten.1 hd).2
  rw [← List.zipIdx_map_fst 0 dealt, List.pairwise_map] at hdis
  rw [lettered, List.pairwise_map]
  exact hdis.imp fun {a b} h x hx hxb => List.disjoint_left.1 h hx hxb

theorem mem_lettered {dealt : List (List String)} {g : List String × String} :
    g ∈ lettered dealt ↔ ∃ k, dealt[k]? = some g.1 ∧ g.2 = Draw.groupLetter k := by
  obtain ⟨teams, letter⟩ := g
  simp only [lettered, List.mem_map, List.mem_zipIdx_iff_getElem?, Prod.mk.injEq]
  constructor
  · rintro ⟨⟨ts, k⟩, hk, rfl, rfl⟩
    exact ⟨k, by simpa using hk, rfl⟩
  · rintro ⟨k, hk, rfl⟩
    exact ⟨(teams, k), by simpa using hk, rfl, rfl⟩

/-- After a draw of distinct teams, the tournament's groups are the dealt ones, each dealt
team holds its group's letter and no other registration of the tournament holds one. -/
theorem dealt_afterDraw {dealt : List (List String)} (hd : dealt.flatten.Nodup)
    (f : Tournament → Tournament) : (s.afterDraw tid dealt f).Dealt tid dealt := by
  have hshown := @groupsOf_afterDraw s tid dealt f
  -- a group of the tournament is one of the dealt lists with its letter
  have hgroup : ∀ g ∈ (s.afterDraw tid dealt f).groupsOf tid, (g.teams, g.letter) ∈ lettered dealt := by
    intro g hg
    have hmem : g.shown ∈ ((s.afterDraw tid dealt f).groupsOf tid).map Group.shown :=
      List.mem_map_of_mem hg
    rw [hshown] at hmem
    obtain ⟨x, hx, he⟩ := List.mem_map.1 hmem
    simp only [Group.shown, Prod.mk.injEq] at he
    rw [← he.2.2.2, ← he.2.1]
    exact List.mem_map_of_mem hx
  have hregs := @registrations_afterDraw s tid dealt f
  refine ⟨?_, ?_, ?_⟩
  · rw [show (fun g : Group => (g.letter, g.order, g.teams)) =
      (fun x : String × String × Value × List String => x.2) ∘ Group.shown from rfl,
      ← List.map_map, hshown, List.map_map]
    rfl
  · intro r hr g hg hid
    rw [hregs] at hr
    obtain ⟨r₀, -, rfl⟩ := List.mem_map.1 hr
    exact Registration.group_relabel_of_mem (pairwise_lettered hd) (hgroup g hg) (by simpa using hid)
  · intro r hr htid hnot
    rw [hregs] at hr
    obtain ⟨r₀, -, rfl⟩ := List.mem_map.1 hr
    have ht : r₀.tournament = tid := by
      by_cases h : r₀.tournament = tid
      · exact h
      · simp [h] at htid
    rw [Registration.relabel_of_not_mem]
    · simp [ht]
    · -- a dealt list is the team list of the group at its place
      intro g hg hid
      obtain ⟨k, hk, hl⟩ := mem_lettered.1 hg
      have hk' : k < dealt.length := (List.getElem?_eq_some_iff.1 hk).1
      have hmem : (tid, Draw.groupLetter k, Value.int (k + 1), g.1) ∈
          ((s.afterDraw tid dealt f).groupsOf tid).map Group.shown := by
        rw [hshown]
        exact List.mem_map.2 ⟨(g.1, k), List.mem_zipIdx_iff_getElem?.2 (by simpa using hk), rfl⟩
      obtain ⟨g', hg', he⟩ := List.mem_map.1 hmem
      simp only [Group.shown, Prod.mk.injEq] at he
      exact hnot g' hg' (by rw [he.2.2.2]; simpa using hid)

/-- The team lists of the tournament's groups after a deal are the dealt lists. -/
theorem Dealt.teams {dealt : List (List String)} (hd : s.Dealt tid dealt) :
    (s.groupsOf tid).map (·.teams) = dealt := by
  have h := congrArg (List.map fun x : String × Value × List String => x.2.2) hd.groups
  rw [List.map_map, List.map_map] at h
  rw [← List.zipIdx_map_fst 0 dealt]
  exact h

/-- A draw keeps every registration's id, tournament, state and time, so the tournament's
approved teams are the same teams in the same order. -/
theorem approvedOf_afterDraw (dealt : List (List String)) (f : Tournament → Tournament) :
    ((s.afterDraw tid dealt f).approvedOf tid).map (·.id) = (s.approvedOf tid).map (·.id) := by
  set φ : Registration → Registration := fun r =>
    (if r.tournament = tid then { r with group := none } else r).relabel (lettered dealt)
  have hφ : ∀ r, (φ r).id = r.id ∧ (φ r).tournament = r.tournament ∧ (φ r).status = r.status ∧
      (φ r).stamp = r.stamp := by
    intro r
    by_cases h : r.tournament = tid <;> simp [φ, h]
  set le : Registration → Registration → Bool := fun a b =>
    a.stamp < b.stamp ∨ (a.stamp = b.stamp ∧ a.id ≤ b.id)
  -- `φ` keeps what the filters and the order read, so it commutes with them
  have htour : ((fun r : Registration => r.tournament == tid) ∘ φ) =
      fun r => r.tournament == tid := by
    funext r
    simp [(hφ r).2.1]
  have hstatus : ((fun r : Registration => r.status == "APPROVED") ∘ φ) =
      fun r => r.status == "APPROVED" := by
    funext r
    simp [(hφ r).2.2.1]
  have hsort : ∀ l : List Registration, (l.map φ).mergeSort le = (l.mergeSort le).map φ :=
    fun l => (List.map_mergeSort (r := le) (s := le) fun a _ b _ => by
      simp [le, (hφ a).1, (hφ b).1, (hφ a).2.2.2, (hφ b).2.2.2]).symm
  have hid : ((fun r : Registration => r.id) ∘ φ) = fun r => r.id := by
    funext r
    simp [(hφ r).1]
  simp only [approvedOf, registrationsOf, registrations_afterDraw]
  change List.map (fun r => r.id) (List.filter _ (((s.tables.registrations.map φ).filter _).mergeSort le)) = _
  rw [List.filter_map, htour, hsort, List.filter_map, hstatus, List.map_map, hid]

/-- The approved teams of a tournament are its registrations in the approved state. -/
theorem mem_approvedOf {r : Registration} :
    r ∈ s.approvedOf tid ↔
      r ∈ s.tables.registrations ∧ r.tournament = tid ∧ r.status = "APPROVED" := by
  simp only [approvedOf, registrationsOf, List.mem_filter, List.mem_mergeSort, beq_iff_eq]
  tauto

/-- With distinct registration ids, the approved teams of a tournament have distinct ids. -/
theorem nodup_approvedOf (hkeys : (s.tables.registrations.map (·.id)).Nodup) :
    ((s.approvedOf tid).map (·.id)).Nodup := by
  have hsub : ((s.tables.registrations.filter (·.tournament == tid)).filter
      (·.status == "APPROVED")).Sublist s.tables.registrations :=
    (List.filter_sublist).trans List.filter_sublist
  have hperm : (s.approvedOf tid).Perm
      ((s.tables.registrations.filter (·.tournament == tid)).filter (·.status == "APPROVED")) :=
    (List.mergeSort_perm _ _).filter _
  exact (hperm.map _).nodup_iff.2 ((hsub.map _).nodup hkeys)

/-- What a registration is known by: its id, tournament, state and time. -/
def regKey (r : Registration) : String × String × String × Nat :=
  (r.id, r.tournament, r.status, r.stamp)

/-- A draw keeps every registration's id, tournament, state and time. -/
theorem regKeys_afterDraw (dealt : List (List String)) (f : Tournament → Tournament) :
    (s.afterDraw tid dealt f).tables.registrations.map regKey =
      s.tables.registrations.map regKey := by
  rw [registrations_afterDraw, List.map_map]
  apply List.map_congr_left
  intro r _
  by_cases h : r.tournament = tid <;> simp [regKey, h]

theorem ids_afterDraw (dealt : List (List String)) (f : Tournament → Tournament) :
    (s.afterDraw tid dealt f).tables.registrations.map (·.id) =
      s.tables.registrations.map (·.id) := by
  have h := congrArg (List.map Prod.fst) (@regKeys_afterDraw s tid dealt f)
  rw [List.map_map, List.map_map] at h
  exact h

/-- When the tournament's groups hold exactly its approved teams, and ids name one registration
each, a deal leaves every approved registration of the tournament with the letter of its
group and every other one with none. -/
theorem Dealt.letters {dealt : List (List String)} (hd : s.Dealt tid dealt)
    (hkeys : (s.tables.registrations.map (·.id)).Nodup)
    (hperm : ((s.groupsOf tid).flatMap (·.teams)).Perm ((s.approvedOf tid).map (·.id))) :
    ∀ r ∈ s.tables.registrations, r.tournament = tid →
      (r.status = "APPROVED" → ∃ g ∈ s.groupsOf tid, r.id ∈ g.teams ∧ r.group = some g.letter) ∧
      (r.status ≠ "APPROVED" → r.group = none) := by
  intro r hr htid
  constructor
  · intro happ
    have hmem : r.id ∈ (s.groupsOf tid).flatMap (·.teams) :=
      hperm.mem_iff.2 (List.mem_map_of_mem (mem_approvedOf.2 ⟨hr, htid, happ⟩))
    obtain ⟨g, hg, hid⟩ := List.mem_flatMap.1 hmem
    exact ⟨g, hg, hid, hd.member r hr g hg hid⟩
  · -- a team dealt to a group is an approved one, and its id names one registration
    intro hnot
    refine hd.other r hr htid fun g hg hid => hnot ?_
    obtain ⟨r', hr', hid'⟩ := List.mem_map.1 (hperm.mem_iff.1 (List.mem_flatMap.2 ⟨g, hg, hid⟩))
    obtain ⟨hr's, -, happ⟩ := mem_approvedOf.1 hr'
    rw [List.inj_on_of_nodup_map hkeys hr's hr hid'] at happ
    exact happ

end Store

end TournamentDraw
