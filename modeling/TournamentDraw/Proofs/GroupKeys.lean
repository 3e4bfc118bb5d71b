import TournamentDraw.Proofs.Drawn
import TournamentDraw.Proofs.Frame
import TournamentDraw.Proofs.Layout
import TournamentDraw.Service.Groups

/-!
# Group letters stay apart

The group table is keyed (`Store.GroupsKeyed`): group ids are apart and numbered up to the
group counter, and within a tournament no two groups have one letter. Every change the
services make to the table keeps it keyed. A draw deletes the tournament's groups and writes
the groups `A, B, …` with new ids; a regrouping does the same with the letters its approved
teams hold, each once; a group made by hand gets the next id and a letter no group of its
tournament has; an edited group keeps its id and takes its own letter or a free one. Nothing
else writes the table, and the counter only goes forward.
-/

namespace TournamentDraw

/-- The tournament and letter of a group. -/
def Group.key (g : Group) : String × String :=
  (g.tournament, g.letter)

namespace Draw

/-- The first 26 group letters are apart. -/
theorem groupLetter_inj : ∀ a < 26, ∀ b < 26, groupLetter a = groupLetter b → a = b := by
  decide

theorem groupLetter_ne_empty : ∀ k < 26, groupLetter k ≠ "" := by
  decide

end Draw

/-- Keeping the first place of each element leaves no repeats. -/
theorem nodup_firstOccurrences : ∀ xs : List String, (firstOccurrences xs).Nodup
  | [] => List.nodup_nil
  | x :: xs => by
    rw [firstOccurrences]
    exact List.nodup_cons.2 ⟨by simp [List.mem_filter], (nodup_firstOccurrences xs).filter _⟩

theorem mem_firstOccurrences {x : String} : ∀ {xs : List String}, x ∈ firstOccurrences xs ↔ x ∈ xs
  | [] => Iff.rfl
  | y :: xs => by
    rw [firstOccurrences, List.mem_cons, List.mem_filter, mem_firstOccurrences, List.mem_cons]
    by_cases h : x = y <;> simp [h]

namespace Store

/-- A keyed group table: group ids apart and numbered up to the group counter, and within
each tournament the letters apart. -/
structure GroupsKeyed (s : Store) : Prop where
  ids : (s.tables.groups.map (·.id)).Nodup
  numbered : ∀ g ∈ s.tables.groups, ∃ k ≤ s.counters.groups, g.id = s!"g{k}"
  letters : (s.tables.groups.map Group.key).Nodup

variable {s s' : Store} {tid : String}

theorem groupId_inj {a b : Nat} (h : s!"g{a}" = s!"g{b}") : a = b :=
  repr_inj ((String.append_right_inj _).1 h)

/-- A change that only drops groups, the counter not gone back, keeps the table keyed. -/
theorem GroupsKeyed.of_sublist (h : s.GroupsKeyed)
    (hsub : s'.tables.groups.Sublist s.tables.groups)
    (hc : s.counters.groups ≤ s'.counters.groups) : s'.GroupsKeyed where
  ids := (hsub.map _).nodup h.ids
  numbered g hg := by
    obtain ⟨k, hk, hid⟩ := h.numbered g (hsub.subset hg)
    exact ⟨k, hk.trans hc, hid⟩
  letters := (hsub.map _).nodup h.letters

theorem GroupsKeyed.congr (h : s.GroupsKeyed) (hg : s'.tables.groups = s.tables.groups)
    (hc : s'.counters.groups = s.counters.groups) : s'.GroupsKeyed :=
  h.of_sublist (hg ▸ List.Sublist.refl _) hc.ge

/-- A refused request leaves the table keyed: the groups as they were, the counter where the
run left it. -/
theorem GroupsKeyed.rollback (h : s.GroupsKeyed) (hc : s.counters.groups ≤ s'.counters.groups) :
    (s.rollback s').GroupsKeyed :=
  h.of_sublist (List.Sublist.refl _) hc

@[simp] theorem tables_groupNumber : s.groupNumber.2.tables = s.tables := rfl

@[simp] theorem groups_groupNumber : s.groupNumber.2.counters.groups = s.counters.groups + 1 :=
  rfl

@[simp] theorem groups_insertGroup (g : Group) :
    (s.insertGroup g).tables.groups = s.tables.groups ++ [g] := rfl

@[simp] theorem counters_insertGroup (g : Group) : (s.insertGroup g).counters = s.counters := rfl

theorem addGroup_eq (letter : String) (teams : List String) (order : Value) :
    let g : Group := { id := s!"g{s.counters.groups + 1}", tournament := tid, letter := letter,
                       order := order, teams := teams, stamp := s.groupNumber.1.2 }
    s.addGroup tid letter teams order = (g, s.groupNumber.2.insertGroup g) := rfl

/-- A group inserted with the next group number and a key no group has keeps the table
keyed. -/
theorem GroupsKeyed.insertGroup (h : s.GroupsKeyed) {g : Group}
    (hid : g.id = s!"g{s.counters.groups + 1}") (hkey : g.key ∉ s.tables.groups.map Group.key) :
    (s.groupNumber.2.insertGroup g).GroupsKeyed where
  ids := by
    -- the new id is numbered past every id handed out before
    have hnew : g.id ∉ s.tables.groups.map (·.id) := by
      intro hq
      obtain ⟨g', hg', hgid⟩ := List.mem_map.1 hq
      obtain ⟨j, hj, hid'⟩ := h.numbered g' hg'
      have := groupId_inj (hid'.symm.trans (hgid.trans hid))
      omega
    simp only [groups_insertGroup, tables_groupNumber, List.map_append, List.map_singleton]
    rw [List.nodup_append_comm]
    exact List.nodup_cons.2 ⟨hnew, h.ids⟩
  numbered := by
    simp only [groups_insertGroup, tables_groupNumber, counters_insertGroup, groups_groupNumber,
      List.mem_append, List.mem_singleton]
    rintro g' (hg' | rfl)
    · obtain ⟨j, hj, hid'⟩ := h.numbered g' hg'
      exact ⟨j, by omega, hid'⟩
    · exact ⟨_, le_rfl, hid⟩
  letters := by
    simp only [groups_insertGroup, tables_groupNumber, List.map_append, List.map_singleton]
    rw [List.nodup_append_comm]
    exact List.nodup_cons.2 ⟨hkey, h.letters⟩

/-- A group added under a letter no group of the tournament has keeps the table keyed. -/
theorem GroupsKeyed.addGroup (h : s.GroupsKeyed) {letter : String}
    (hfree : (tid, letter) ∉ s.tables.groups.map Group.key) (teams : List String)
    (order : Value) : (s.addGroup tid letter teams order).2.GroupsKeyed := by
  rw [addGroup_eq]
  exact h.insertGroup rfl hfree

theorem groups_addGroup (letter : String) (teams : List String) (order : Value) :
    (s.addGroup tid letter teams order).2.tables.groups =
      s.tables.groups ++ [(s.addGroup tid letter teams order).1] := rfl

@[simp] theorem key_addGroup (letter : String) (teams : List String) (order : Value) :
    (s.addGroup tid letter teams order).1.key = (tid, letter) := rfl

@[simp] theorem counters_addGroup (letter : String) (teams : List String) (order : Value) :
    (s.addGroup tid letter teams order).2.counters.groups = s.counters.groups + 1 := rfl

@[simp] theorem registrations_addGroup (letter : String) (teams : List String) (order : Value) :
    (s.addGroup tid letter teams order).2.tables.registrations = s.tables.registrations := rfl

/-- When no group of the tournament has a letter, no key of the table is the tournament's with
that letter. -/
theorem key_not_mem_of_groupByLetter? {letter : String} (h : s.groupByLetter? tid letter = none) :
    (tid, letter) ∉ s.tables.groups.map Group.key := by
  intro hk
  obtain ⟨g, hg, hgk⟩ := List.mem_map.1 hk
  have hne := List.find?_eq_none.1 h g hg
  simp only [Group.key, Prod.mk.injEq] at hgk
  simp [hgk] at hne

theorem mem_of_groupIn? {gid : String} {g : Group} (h : s.groupIn? tid gid = some g) :
    g ∈ s.tables.groups ∧ g.tournament = tid := by
  have hg := List.find?_some h
  simp only [Bool.and_eq_true, beq_iff_eq] at hg
  exact ⟨List.mem_of_find?_eq_some h, hg.2⟩

/-- Changing the group with an id, when ids are apart, changes that group alone. -/
theorem GroupsKeyed.modifyGroup (h : s.GroupsKeyed) {g : Group} (hg : g ∈ s.tables.groups)
    {f : Group → Group} (hid : (f g).id = g.id)
    (hkey : (f g).key = g.key ∨ (f g).key ∉ s.tables.groups.map Group.key) :
    (s.modifyGroup g.id f).GroupsKeyed := by
  -- only `g` has `g`'s id
  have hsame : ∀ x ∈ s.tables.groups, x.id = g.id → x = g :=
    fun x hx hx' => List.inj_on_of_nodup_map h.ids hx hg hx'
  have hmap : (s.modifyGroup g.id f).tables.groups =
      s.tables.groups.map fun x => if x.id = g.id then f g else x := by
    refine List.map_congr_left fun x hx => ?_
    by_cases hx' : x.id = g.id
    · simp [hsame x hx hx']
    · simp [hx']
  refine ⟨?_, ?_, ?_⟩
  · rw [hmap, List.map_map]
    convert h.ids using 1
    refine List.map_congr_left fun x hx => ?_
    by_cases hx' : x.id = g.id <;> simp [hx', hid]
  · rw [hmap]
    simp only [List.mem_map]
    rintro _ ⟨x, hx, rfl⟩
    by_cases hx' : x.id = g.id
    · simp only [hx', if_true, hid]
      exact h.numbered g hg
    · simp only [hx', if_false]
      exact h.numbered x hx
  · -- the changed key is `g`'s own or one no group has
    rw [hmap, List.map_map]
    refine List.Nodup.map_on (fun x hx y hy hxy => ?_) (List.Nodup.of_map _ h.ids)
    by_cases hx' : x.id = g.id <;> by_cases hy' : y.id = g.id
    · rw [hsame x hx hx', hsame y hy hy']
    · simp only [Function.comp, hx', hy', if_true, if_false] at hxy
      rcases hkey with hk | hk
      · exact (hsame x hx hx').trans (List.inj_on_of_nodup_map h.letters hg hy (hk ▸ hxy))
      · exact absurd (List.mem_map_of_mem (f := Group.key) hy) (hxy ▸ hk)
    · simp only [Function.comp, hx', hy', if_true, if_false] at hxy
      rcases hkey with hk | hk
      · exact ((List.inj_on_of_nodup_map h.letters hg hx (hk ▸ hxy.symm)).symm.trans
          (hsame y hy hy').symm)
      · exact absurd (List.mem_map_of_mem (f := Group.key) hx) (hxy.symm ▸ hk)
    · simp only [Function.comp, hx', hy', if_false] at hxy
      exact List.inj_on_of_nodup_map h.letters hx hy hxy

/-- A fold of changes that each keep a part `v` of the store keeps it. -/
theorem keeps_foldl {β δ : Type} (v : Store → β) {f : Store → δ → Store}
    (hf : ∀ s x, v (f s x) = v s) (xs : List δ) (s : Store) : v (xs.foldl f s) = v s :=
  (Txn.Effect.keeping v).foldl id hf xs s

@[simp] theorem groups_modifyRegistration (rid : String) (f : Registration → Registration) :
    (s.modifyRegistration rid f).tables.groups = s.tables.groups := rfl

@[simp] theorem counters_modifyRegistration (rid : String) (f : Registration → Registration) :
    (s.modifyRegistration rid f).counters = s.counters := rfl

@[simp] theorem groups_reletter (changes : List (String × Option String)) :
    (s.reletter changes).tables.groups = s.tables.groups := by
  unfold reletter
  exact keeps_foldl (·.tables.groups) (fun _ _ => by rfl) changes s

@[simp] theorem counters_reletter (changes : List (String × Option String)) :
    (s.reletter changes).counters = s.counters := by
  unfold reletter
  exact keeps_foldl (·.counters) (fun _ _ => by rfl) changes s

/-! ### Draws -/

theorem keys_writeGroup (acc : List Group × Store) (x : List String × Nat) :
    (writeGroup tid acc x).2.tables.groups.map Group.key =
      acc.2.tables.groups.map Group.key ++ [(tid, Draw.groupLetter x.2)] := by
  rw [writeGroup_eq, groups_assignLetter, groups_addGroup, List.map_append, List.map_singleton,
    key_addGroup]

/-- Writing a drawn group under a letter no group of the tournament has keeps the table
keyed. -/
theorem GroupsKeyed.writeGroup {acc : List Group × Store} {x : List String × Nat}
    (h : acc.2.GroupsKeyed)
    (hfree : (tid, Draw.groupLetter x.2) ∉ acc.2.tables.groups.map Group.key) :
    (Store.writeGroup tid acc x).2.GroupsKeyed := by
  rw [writeGroup_eq]
  exact (h.addGroup hfree _ _).congr (groups_assignLetter _ _ _) (by simp)

/-- Writing drawn groups under letters apart, none of which a group of the tournament has, keeps
the table keyed. -/
theorem GroupsKeyed.foldl_writeGroup : ∀ (xs : List (List String × Nat)) (acc : List Group × Store),
    acc.2.GroupsKeyed → (xs.map fun x => Draw.groupLetter x.2).Nodup →
    (∀ x ∈ xs, (tid, Draw.groupLetter x.2) ∉ acc.2.tables.groups.map Group.key) →
    (xs.foldl (Store.writeGroup tid) acc).2.GroupsKeyed
  | [], _, h, _, _ => h
  | x :: xs, acc, h, hnd, hfree => by
    rw [List.foldl_cons]
    obtain ⟨hx, hnd'⟩ := List.nodup_cons.1 hnd
    refine GroupsKeyed.foldl_writeGroup xs _ (h.writeGroup (hfree x List.mem_cons_self)) hnd' ?_
    -- the group just written has a letter none of the later ones has
    intro y hy
    rw [keys_writeGroup, List.mem_append, List.mem_singleton, not_or]
    refine ⟨hfree y (List.mem_cons_of_mem _ hy), fun heq => hx ?_⟩
    exact List.mem_map.2 ⟨y, hy, (Prod.mk.inj heq).2⟩

/-- A draw of at most 26 groups leaves the table keyed: the tournament's groups deleted, the
groups `A, B, …` written with new ids. -/
theorem GroupsKeyed.afterDraw (h : s.GroupsKeyed) {dealt : List (List String)}
    (hn : dealt.length ≤ 26) (f : Tournament → Tournament) :
    (s.afterDraw tid dealt f).GroupsKeyed := by
  have hbase : ((s.deleteGroups tid).clearGroupLetters tid).GroupsKeyed :=
    h.of_sublist (by simp [List.filter_sublist]) le_rfl
  -- the letters `A, B, …` of at most 26 groups are apart
  have hnd : (dealt.zipIdx.map fun x => Draw.groupLetter x.2).Nodup := by
    rw [show (fun x : List String × Nat => Draw.groupLetter x.2) = Draw.groupLetter ∘ Prod.snd
      from rfl, ← List.map_map, List.zipIdx_map_snd, ← List.range_eq_range']
    refine List.Nodup.map_on (fun a ha b hb hab => ?_) List.nodup_range
    exact Draw.groupLetter_inj a (by simp at ha; omega) b (by simp at hb; omega) hab
  have hfree : ∀ x ∈ dealt.zipIdx, (tid, Draw.groupLetter x.2) ∉
      ((s.deleteGroups tid).clearGroupLetters tid).tables.groups.map Group.key := by
    intro x _ hx
    obtain ⟨g, hg, hgk⟩ := List.mem_map.1 hx
    simp only [groups_clearGroupLetters, groups_deleteGroups, List.mem_filter, bne_iff_ne,
      ne_eq] at hg
    exact hg.2 (congrArg Prod.fst hgk)
  exact (hbase.foldl_writeGroup dealt.zipIdx ([], _) hnd hfree).congr rfl rfl

/-! ### Regrouping -/

theorem nodup_heldLetters : (s.heldLetters tid).Nodup :=
  (List.mergeSort_perm _ _).nodup_iff.2 (nodup_firstOccurrences _)

/-- A letter is held when an approved team of the tournament holds it as a named letter. -/
theorem mem_heldLetters {L : String} :
    L ∈ s.heldLetters tid ↔ ∃ r ∈ s.approvedOf tid, named r.group = true ∧ r.group = some L := by
  rw [heldLetters, List.mem_mergeSort, mem_firstOccurrences, List.mem_filterMap]
  constructor
  · rintro ⟨r, hr, hL⟩
    by_cases hn : named r.group = true
    · simp only [hn, if_true] at hL
      exact ⟨r, hr, hn, hL⟩
    · simp [hn] at hL
  · rintro ⟨r, hr, hn, hL⟩
    exact ⟨r, hr, by rw [if_pos hn, hL]⟩

/-- One step of a regrouping: the next group under a letter, placed after those before. -/
def regroupStep (tid : String) (teams : String → List String) (acc : List Group × Store)
    (x : String × Nat) : List Group × Store :=
  let (g, s') := acc.2.addGroup tid x.1 (teams x.1) (.int (x.2 + 1))
  (acc.1 ++ [g], s')

theorem regroup_eq :
    s.regroup tid = (s.heldLetters tid).zipIdx.foldl
      (regroupStep tid fun L => ((s.approvedOf tid).filter (·.group == some L)).map (·.id))
      ([], s.deleteGroups tid) := rfl

theorem regroupStep_snd (teams : String → List String) (acc : List Group × Store)
    (x : String × Nat) :
    (regroupStep tid teams acc x).2 = (acc.2.addGroup tid x.1 (teams x.1) (.int (x.2 + 1))).2 :=
  rfl

/-- Regrouping under letters apart, none of which a group of the tournament has, keeps the
table keyed. -/
theorem GroupsKeyed.foldl_regroupStep (teams : String → List String) :
    ∀ (xs : List (String × Nat)) (acc : List Group × Store),
    acc.2.GroupsKeyed → (xs.map (·.1)).Nodup →
    (∀ x ∈ xs, (tid, x.1) ∉ acc.2.tables.groups.map Group.key) →
    (xs.foldl (regroupStep tid teams) acc).2.GroupsKeyed
  | [], _, h, _, _ => h
  | x :: xs, acc, h, hnd, hfree => by
    rw [List.foldl_cons]
    obtain ⟨hx, hnd'⟩ := List.nodup_cons.1 hnd
    refine GroupsKeyed.foldl_regroupStep teams xs _ ?_ hnd' ?_
    · rw [regroupStep_snd]
      exact h.addGroup (hfree x List.mem_cons_self) _ _
    · -- the group just added has a letter none of the later ones has
      intro y hy
      rw [regroupStep_snd, groups_addGroup, List.map_append, List.map_singleton, key_addGroup,
        List.mem_append, List.mem_singleton, not_or]
      exact ⟨hfree y (List.mem_cons_of_mem _ hy),
        fun heq => hx (List.mem_map.2 ⟨y, hy, (Prod.mk.inj heq).2⟩)⟩

/-- Regrouping a tournament leaves the table keyed. -/
theorem GroupsKeyed.regroup (h : s.GroupsKeyed) : (s.regroup tid).2.GroupsKeyed := by
  rw [regroup_eq]
  refine GroupsKeyed.foldl_regroupStep _ _ _ (h.of_sublist (by simp [List.filter_sublist]) le_rfl)
    ?_ ?_
  · rw [show (fun x : String × Nat => x.1) = Prod.fst from rfl, List.zipIdx_map_fst]
    exact nodup_heldLetters
  · intro x _ hx
    obtain ⟨g, hg, hgk⟩ := List.mem_map.1 hx
    simp only [groups_deleteGroups, List.mem_filter, bne_iff_ne, ne_eq] at hg
    exact hg.2 (congrArg Prod.fst hgk)

/-! ### Editing one group -/

@[simp] theorem counters_modifyGroup (gid : String) (f : Group → Group) :
    (s.modifyGroup gid f).counters = s.counters := rfl

/-- Editing a group writes the group table only through the group's own row. -/
theorem groups_editGroup (g : Group) (teams : List String) (letter : String) :
    (s.editGroup tid g teams letter).tables.groups =
      (s.modifyGroup g.id fun g => { g with teams := teams, letter := letter }).tables.groups ∧
    (s.editGroup tid g teams letter).counters = s.counters := by
  -- the letters given and taken away change registrations only
  unfold editGroup
  rw [keeps_foldl (·.tables.groups), keeps_foldl (·.counters), counters_modifyGroup,
    keeps_foldl (·.counters)]
  · refine ⟨?_, rfl⟩
    simp only [modifyGroup]
    rw [keeps_foldl (·.tables.groups)]
    intro s x
    split
    · split
      · split <;> rfl
      · rfl
    · rfl
  -- the teams leaving lose the old letter, the members take the new one
  · intro s x
    split
    · split
      · split <;> rfl
      · rfl
    · rfl
  · intro s x
    split <;> rfl
  · intro s x
    split <;> rfl

/-- Editing a group of the table under its own letter, or a letter no group of its tournament
has, keeps the table keyed. -/
theorem GroupsKeyed.editGroup (h : s.GroupsKeyed) {g : Group} (hg : g ∈ s.tables.groups)
    (teams : List String) {letter : String}
    (hfree : letter = g.letter ∨ (g.tournament, letter) ∉ s.tables.groups.map Group.key) :
    (s.editGroup tid g teams letter).GroupsKeyed := by
  obtain ⟨hgroups, hcounters⟩ := @groups_editGroup s tid g teams letter
  refine (h.modifyGroup hg rfl ?_).congr hgroups (by rw [hcounters]; rfl)
  rcases hfree with rfl | hfree
  · exact .inl rfl
  · exact .inr hfree

end Store

end TournamentDraw
