import TournamentDraw.Proofs.GroupKeys

/-!
# Group letters linked to groups

A tournament's letters are linked to its groups (`Store.LinkedIn`) when none of its
registrations holds the empty letter, each one listed in one of its groups holds that group's
letter, and each approved one holding a letter is listed in its group with that letter.

A draw rebuilds the link for the drawn tournament from the deal, and a regrouping rebuilds it
from the letters the moves gave: the groups are made from the letters, so they list exactly
the approved teams holding them. Both leave the other tournaments' registrations and groups
as they were (`Store.SameOutside`), so when registration ids name one registration each the
link holds in every tournament after either (`Store.LettersLinked`).
-/

namespace TournamentDraw

namespace Registration

/-- A registration after letter changes, one after another: a change naming its id gives it the
change's letter. -/
def reletter (r : Registration) (changes : List (String × Option String)) : Registration :=
  changes.foldl (fun r c => if r.id = c.1 then { r with group := c.2 } else r) r

/-- Changing letters changes the group letter only. -/
theorem reletter_eq (r : Registration) (changes : List (String × Option String)) :
    r.reletter changes = { r with group := (r.reletter changes).group } := by
  induction changes generalizing r with
  | nil => rfl
  | cons c changes ih =>
    simp only [reletter, List.foldl_cons] at ih ⊢
    rw [ih]
    split <;> rfl

@[simp] theorem id_reletter (r : Registration) (changes : List (String × Option String)) :
    (r.reletter changes).id = r.id := by
  rw [reletter_eq]

@[simp] theorem tournament_reletter (r : Registration) (changes : List (String × Option String)) :
    (r.reletter changes).tournament = r.tournament := by
  rw [reletter_eq]

@[simp] theorem status_reletter (r : Registration) (changes : List (String × Option String)) :
    (r.reletter changes).status = r.status := by
  rw [reletter_eq]

/-- A registration's letter after the changes is its own or the letter of a change naming it. -/
theorem group_reletter (r : Registration) (changes : List (String × Option String)) :
    (r.reletter changes).group = r.group ∨
      ∃ c ∈ changes, c.1 = r.id ∧ (r.reletter changes).group = c.2 := by
  induction changes generalizing r with
  | nil => exact .inl rfl
  | cons c changes ih =>
    simp only [reletter, List.foldl_cons] at ih ⊢
    by_cases hc : r.id = c.1
    · rw [if_pos hc]
      rcases ih { r with group := c.2 } with h | ⟨c', hc', hid, h⟩
      · exact .inr ⟨c, List.mem_cons_self, hc.symm, h⟩
      · exact .inr ⟨c', List.mem_cons_of_mem _ hc', hid, h⟩
    · rw [if_neg hc]
      rcases ih r with h | ⟨c', hc', hid, h⟩
      · exact .inl h
      · exact .inr ⟨c', List.mem_cons_of_mem _ hc', hid, h⟩

/-- A registration no change names keeps its letter. -/
theorem reletter_of_not_mem {r : Registration} {changes : List (String × Option String)}
    (h : ∀ c ∈ changes, c.1 ≠ r.id) : r.reletter changes = r := by
  induction changes with
  | nil => rfl
  | cons c changes ih =>
    simp only [reletter, List.foldl_cons] at ih ⊢
    rw [if_neg fun hc => h c List.mem_cons_self hc.symm]
    exact ih fun c' hc' => h c' (List.mem_cons_of_mem _ hc')

end Registration

namespace Store

variable {s s' : Store} {tid : String}

theorem mem_groupsOf {g : Group} :
    g ∈ s.groupsOf tid ↔ g ∈ s.tables.groups ∧ g.tournament = tid := by
  simp [groupsOf, List.mem_mergeSort, List.mem_filter]

theorem registrations_reletter (changes : List (String × Option String)) :
    (s.reletter changes).tables.registrations =
      s.tables.registrations.map (·.reletter changes) := by
  induction changes generalizing s with
  | nil => simp [reletter, Registration.reletter]
  | cons c changes ih =>
    simp only [reletter, Registration.reletter, List.foldl_cons] at ih ⊢
    rw [ih]
    simp only [modifyRegistration, List.map_map]
    rfl

/-! ### The link -/

/-- A tournament's group letters linked to its groups: none of its registrations holds the empty
letter, each one listed in one of its groups holds that group's letter, and each approved one
holding a letter is listed in its group with that letter. -/
structure LinkedIn (s : Store) (tid : String) : Prop where
  named : ∀ r ∈ s.tables.registrations, r.tournament = tid → r.group ≠ some ""
  listed : ∀ r ∈ s.tables.registrations, r.tournament = tid → ∀ g ∈ s.groupsOf tid,
    r.id ∈ g.teams → r.group = some g.letter
  held : ∀ r ∈ s.tables.registrations, r.tournament = tid → r.status = "APPROVED" →
    ∀ L, r.group = some L → ∃ g ∈ s.groupsOf tid, g.letter = L ∧ r.id ∈ g.teams

/-- Group letters linked to groups in every tournament, registration ids naming one
registration each. -/
structure LettersLinked (s : Store) : Prop where
  ids : (s.tables.registrations.map (·.id)).Nodup
  linked : ∀ tid, s.LinkedIn tid

/-- A change that leaves the registrations and groups of every other tournament as they were. -/
structure SameOutside (s s' : Store) (tid : String) : Prop where
  registrations : ∀ r : Registration, r.tournament ≠ tid →
    (r ∈ s'.tables.registrations ↔ r ∈ s.tables.registrations)
  groups : ∀ t, t ≠ tid → s'.groupsOf t = s.groupsOf t

/-- The link of a tournament a change leaves alone stays. -/
theorem LinkedIn.of_sameOutside {t : String} (h : s.LinkedIn t) (hout : SameOutside s s' tid)
    (ht : t ≠ tid) : s'.LinkedIn t := by
  have hreg : ∀ r ∈ s'.tables.registrations, r.tournament = t → r ∈ s.tables.registrations :=
    fun r hr hrt => (hout.registrations r (hrt ▸ ht)).1 hr
  obtain ⟨hnamed, hlisted, hheld⟩ := h
  rw [← hout.groups t ht] at hlisted hheld
  exact ⟨fun r hr hrt => hnamed r (hreg r hr hrt) hrt,
    fun r hr hrt => hlisted r (hreg r hr hrt) hrt,
    fun r hr hrt => hheld r (hreg r hr hrt) hrt⟩

/-- A change that keeps the registration ids, leaves the other tournaments alone and links the
letters of the one it changes keeps every tournament linked. -/
theorem LettersLinked.of_change (h : s.LettersLinked)
    (hids : s'.tables.registrations.map (·.id) = s.tables.registrations.map (·.id))
    (hout : SameOutside s s' tid) (hin : s'.LinkedIn tid) : s'.LettersLinked where
  ids := hids ▸ h.ids
  linked t := by
    by_cases ht : t = tid
    · exact ht ▸ hin
    · exact (h.linked t).of_sameOutside hout ht

theorem LettersLinked.congr (h : s.LettersLinked)
    (hr : s'.tables.registrations = s.tables.registrations)
    (hg : s'.tables.groups = s.tables.groups) : s'.LettersLinked := by
  have hof : ∀ t, s'.groupsOf t = s.groupsOf t := fun t => by rw [groupsOf, groupsOf, hg]
  refine ⟨hr ▸ h.ids, fun t => ?_⟩
  obtain ⟨hnamed, hlisted, hheld⟩ := h.linked t
  rw [← hr, ← hof] at hlisted hheld
  rw [← hr] at hnamed
  exact ⟨hnamed, hlisted, hheld⟩

/-- Groups of one tournament replaced by new ones of it: the other tournaments' groups stay. -/
theorem groupsOf_of_replaced {news : List Group}
    (h : s'.tables.groups = s.tables.groups.filter (·.tournament != tid) ++ news)
    (hnews : ∀ g ∈ news, g.tournament = tid) {t : String} (ht : t ≠ tid) :
    s'.groupsOf t = s.groupsOf t := by
  have hnone : news.filter (·.tournament == t) = [] :=
    List.filter_eq_nil_iff.2 fun g hg => by simp [hnews g hg, Ne.symm ht]
  rw [groupsOf, groupsOf, h, List.filter_append, hnone, List.append_nil, List.filter_filter]
  congr 2
  funext g
  by_cases hg : g.tournament = t
  · simp [hg, ht]
  · simp [hg]

theorem mem_groupsOf_of_replaced {news : List Group}
    (h : s'.tables.groups = s.tables.groups.filter (·.tournament != tid) ++ news)
    (hnews : ∀ g ∈ news, g.tournament = tid) {g : Group} : g ∈ s'.groupsOf tid ↔ g ∈ news := by
  rw [mem_groupsOf, h, List.mem_append, List.mem_filter]
  constructor
  · rintro ⟨⟨-, hne⟩ | hg, ht⟩
    · simp_all
    · exact hg
  · intro hg
    exact ⟨.inr hg, hnews g hg⟩

/-! ### Draws -/

/-- The groups a draw writes are the tournament's, after its old ones are deleted. -/
theorem groups_afterDraw (dealt : List (List String)) (f : Tournament → Tournament) :
    ∃ news, (s.afterDraw tid dealt f).tables.groups =
      s.tables.groups.filter (·.tournament != tid) ++ news ∧ ∀ g ∈ news, g.tournament = tid := by
  obtain ⟨hgroups, -, hshown, -, -⟩ :=
    foldl_writeGroup ((s.deleteGroups tid).clearGroupLetters tid) tid dealt.zipIdx []
  simp only [List.length_nil, List.drop_zero] at hgroups hshown
  refine ⟨_, hgroups, fun g hg => ?_⟩
  have hmem : g.shown ∈ _ := List.mem_map_of_mem (f := Group.shown) hg
  rw [hshown] at hmem
  obtain ⟨x, -, hx⟩ := List.mem_map.1 hmem
  exact (congrArg Prod.fst hx).symm

/-- A draw of approved teams leaves every other tournament alone: a registration of another
tournament is dealt nowhere, since ids name one registration each. -/
theorem sameOutside_afterDraw (hids : (s.tables.registrations.map (·.id)).Nodup)
    {dealt : List (List String)}
    (hdealt : ∀ x ∈ dealt.flatten, x ∈ (s.approvedOf tid).map (·.id)) (f : Tournament → Tournament) :
    SameOutside s (s.afterDraw tid dealt f) tid where
  registrations r hr := by
    have hkeep : ∀ r₀ ∈ s.tables.registrations, r₀.tournament ≠ tid →
        (if r₀.tournament = tid then { r₀ with group := none } else r₀).relabel
          (lettered dealt) = r₀ := by
      intro r₀ hr₀ ht
      rw [if_neg ht]
      refine Registration.relabel_of_not_mem fun g hg hin => ht ?_
      obtain ⟨k, hk, -⟩ := mem_lettered.1 hg
      have hx : r₀.id ∈ dealt.flatten := List.mem_flatten.2 ⟨g.1, List.mem_of_getElem? hk, hin⟩
      obtain ⟨a, ha, hid⟩ := List.mem_map.1 (hdealt _ hx)
      obtain ⟨has, hat, -⟩ := mem_approvedOf.1 ha
      rw [← List.inj_on_of_nodup_map hids has hr₀ hid]
      exact hat
    rw [registrations_afterDraw]
    constructor
    · intro hr'
      obtain ⟨r₀, hr₀, rfl⟩ := List.mem_map.1 hr'
      have ht : r₀.tournament ≠ tid := by
        by_cases h₀ : r₀.tournament = tid <;> simp_all
      rw [hkeep r₀ hr₀ ht]
      exact hr₀
    · intro hr'
      exact List.mem_map.2 ⟨r, hr', hkeep r hr' hr⟩
  groups t ht := by
    obtain ⟨news, hg, hnews⟩ := @groups_afterDraw s tid dealt f
    exact groupsOf_of_replaced hg hnews ht

/-- After a draw of approved teams, each approved team dealt once, in at most 26 groups, the
drawn tournament's letters are linked to its groups. -/
theorem linkedIn_afterDraw (hids : (s.tables.registrations.map (·.id)).Nodup)
    {dealt : List (List String)} (hperm : dealt.flatten.Perm ((s.approvedOf tid).map (·.id)))
    (hn : dealt.length ≤ 26) (f : Tournament → Tournament) :
    (s.afterDraw tid dealt f).LinkedIn tid := by
  have hD := @dealt_afterDraw s tid _ (hperm.nodup_iff.2 (nodup_approvedOf hids)) f
  have hids' : ((s.afterDraw tid dealt f).tables.registrations.map (·.id)).Nodup := by
    rw [ids_afterDraw]
    exact hids
  have hletters := hD.letters hids' (by
    rw [approvedOf_afterDraw, List.flatMap_def, hD.teams]
    exact hperm)
  -- every group the draw wrote has one of the first 26 letters
  have hnamed : ∀ g ∈ (s.afterDraw tid dealt f).groupsOf tid, g.letter ≠ "" := by
    intro g hg
    have hmem := List.mem_map_of_mem (f := fun g : Group => (g.letter, g.order, g.teams)) hg
    rw [hD.groups] at hmem
    obtain ⟨x, hx, hgx⟩ := List.mem_map.1 hmem
    have hk : x.2 < 26 := by
      have := (List.mem_zipIdx hx).2.1
      omega
    rw [← (Prod.mk.inj hgx).1]
    exact Draw.groupLetter_ne_empty x.2 hk
  refine ⟨fun r hr hrt hempty => ?_, fun r hr _ g hg hid => hD.member r hr g hg hid, ?_⟩
  · by_cases hin : ∃ g ∈ (s.afterDraw tid dealt f).groupsOf tid, r.id ∈ g.teams
    · obtain ⟨g, hg, hid⟩ := hin
      rw [hD.member r hr g hg hid, Option.some.injEq] at hempty
      exact hnamed g hg hempty
    · rw [hD.other r hr hrt fun g hg hid => hin ⟨g, hg, hid⟩] at hempty
      cases hempty
  · intro r hr hrt happ L hL
    obtain ⟨g, hg, hid, hgr⟩ := (hletters r hr hrt).1 happ
    rw [hL, Option.some.injEq] at hgr
    exact ⟨g, hg, hgr.symm, hid⟩

/-- A draw of the approved teams, each dealt once in at most 26 groups, keeps every tournament's
letters linked. -/
theorem LettersLinked.afterDraw (h : s.LettersLinked) {dealt : List (List String)}
    (hperm : dealt.flatten.Perm ((s.approvedOf tid).map (·.id))) (hn : dealt.length ≤ 26)
    (f : Tournament → Tournament) : (s.afterDraw tid dealt f).LettersLinked :=
  h.of_change (ids_afterDraw dealt f) (sameOutside_afterDraw h.ids (fun _ hx => hperm.subset hx) f)
    (linkedIn_afterDraw h.ids hperm hn f)

/-- A reset deletes the tournament's groups and takes every letter of it away, which keeps
every tournament's letters linked. -/
theorem LettersLinked.afterDraw_nil (h : s.LettersLinked) (f : Tournament → Tournament) :
    (s.afterDraw tid [] f).LettersLinked := by
  have hD := @dealt_afterDraw s tid [] List.nodup_nil f
  have hnone : ∀ g ∈ (s.afterDraw tid [] f).groupsOf tid, False := by
    intro g hg
    have hteams := hD.teams
    rw [List.map_eq_nil_iff] at hteams
    rw [hteams] at hg
    cases hg
  have hfree : ∀ r ∈ (s.afterDraw tid [] f).tables.registrations, r.tournament = tid →
      r.group = none := fun r hr hrt => hD.other r hr hrt fun g hg _ => hnone g hg
  refine h.of_change (ids_afterDraw [] f) (sameOutside_afterDraw h.ids (by simp) f)
    ⟨fun r hr hrt => by simp [hfree r hr hrt], fun r _ _ g hg => (hnone g hg).elim,
      fun r hr hrt _ L hL => ?_⟩
  rw [hfree r hr hrt] at hL
  cases hL

/-! ### Regrouping -/

theorem SameOutside.trans {s'' : Store} (h₁ : SameOutside s s' tid) (h₂ : SameOutside s' s'' tid) :
    SameOutside s s'' tid where
  registrations r hr := (h₂.registrations r hr).trans (h₁.registrations r hr)
  groups t ht := (h₂.groups t ht).trans (h₁.groups t ht)

/-- Regrouping appends one group per letter, made of the teams holding the letter. -/
theorem foldl_regroupStep (teams : String → List String) :
    ∀ (xs : List (String × Nat)) (acc : List Group × Store), ∃ news,
      (xs.foldl (regroupStep tid teams) acc).2.tables.groups = acc.2.tables.groups ++ news ∧
      news.map (fun g => (g.tournament, g.letter, g.teams)) = xs.map fun x => (tid, x.1, teams x.1)
  | [], acc => ⟨[], by simp, rfl⟩
  | x :: xs, acc => by
    obtain ⟨news, hg, hv⟩ := foldl_regroupStep teams xs (regroupStep tid teams acc x)
    refine ⟨(acc.2.addGroup tid x.1 (teams x.1) (.int (x.2 + 1))).1 :: news, ?_, ?_⟩
    · rw [List.foldl_cons, hg, regroupStep_snd, groups_addGroup, List.append_assoc]
      rfl
    · rw [List.map_cons, hv, List.map_cons]
      rfl

/-- The teams of a regrouped tournament holding a letter: its approved registrations with that
letter. -/
def holding (s : Store) (tid L : String) : List String :=
  ((s.approvedOf tid).filter (·.group == some L)).map (·.id)

/-- A regrouping replaces the tournament's groups by one group for each letter its approved
teams hold, listing those teams. -/
theorem groups_regroup : ∃ news, (s.regroup tid).2.tables.groups =
      s.tables.groups.filter (·.tournament != tid) ++ news ∧
    news.map (fun g => (g.tournament, g.letter, g.teams)) =
      (s.heldLetters tid).map fun L => (tid, L, s.holding tid L) := by
  rw [regroup_eq]
  obtain ⟨news, hg, hv⟩ := @foldl_regroupStep tid (s.holding tid) (s.heldLetters tid).zipIdx
    ([], s.deleteGroups tid)
  refine ⟨news, hg, ?_⟩
  rw [hv, show (fun x : String × Nat => (tid, x.1, s.holding tid x.1)) =
    (fun L => (tid, L, s.holding tid L)) ∘ Prod.fst from rfl, ← List.map_map,
    List.zipIdx_map_fst]

theorem registrations_regroup :
    (s.regroup tid).2.tables.registrations = s.tables.registrations := by
  rw [regroup_eq]
  exact (Txn.Effect.keeping fun s : Store => s.tables.registrations).foldl
    (Prod.snd : List Group × Store → Store) (fun _ _ => by rw [regroupStep_snd]; rfl) _ _

theorem sameOutside_regroup : SameOutside s (s.regroup tid).2 tid where
  registrations r _ := by rw [registrations_regroup]
  groups t ht := by
    obtain ⟨news, hg, hv⟩ := @groups_regroup s tid
    refine groupsOf_of_replaced hg (fun g hg' => ?_) ht
    have hmem := List.mem_map_of_mem (f := fun g : Group => (g.tournament, g.letter, g.teams)) hg'
    rw [hv] at hmem
    obtain ⟨L, -, hL⟩ := List.mem_map.1 hmem
    exact (congrArg Prod.fst hL).symm

/-- Letter changes each naming a registration of the tournament leave every other tournament
alone, since ids name one registration each. -/
theorem sameOutside_reletter (hids : (s.tables.registrations.map (·.id)).Nodup)
    {changes : List (String × Option String)}
    (hchanges : ∀ c ∈ changes, ∃ r ∈ s.tables.registrations, r.tournament = tid ∧ r.id = c.1) :
    SameOutside s (s.reletter changes) tid where
  registrations r hr := by
    have hkeep : ∀ r₀ ∈ s.tables.registrations, r₀.tournament ≠ tid → r₀.reletter changes = r₀ := by
      intro r₀ hr₀ ht
      refine Registration.reletter_of_not_mem fun c hc hid => ht ?_
      obtain ⟨a, ha, hat, haid⟩ := hchanges c hc
      rw [← List.inj_on_of_nodup_map hids ha hr₀ (haid.trans hid)]
      exact hat
    rw [registrations_reletter]
    constructor
    · intro hr'
      obtain ⟨r₀, hr₀, rfl⟩ := List.mem_map.1 hr'
      rw [Registration.tournament_reletter] at hr
      rw [hkeep r₀ hr₀ hr]
      exact hr₀
    · intro hr'
      exact List.mem_map.2 ⟨r, hr', hkeep r hr' hr⟩
  groups t _ := by rw [groupsOf, groupsOf, groups_reletter]

/-- After a regrouping, with no registration of the tournament holding the empty letter, the
tournament's letters are linked to its groups. -/
theorem linkedIn_regroup (hids : (s.tables.registrations.map (·.id)).Nodup)
    (hnamed : ∀ r ∈ s.tables.registrations, r.tournament = tid → r.group ≠ some "") :
    (s.regroup tid).2.LinkedIn tid := by
  obtain ⟨news, hg, hv⟩ := @groups_regroup s tid
  have hnews : ∀ g ∈ news, g.tournament = tid := fun g hg' => by
    have hmem := List.mem_map_of_mem (f := fun g : Group => (g.tournament, g.letter, g.teams)) hg'
    rw [hv] at hmem
    obtain ⟨L, -, hL⟩ := List.mem_map.1 hmem
    exact (congrArg Prod.fst hL).symm
  refine ⟨fun r hr => hnamed r (by rwa [registrations_regroup] at hr),
    fun r hr _ g hg' hid => ?_, fun r hr hrt happ L hL => ?_⟩
  · -- a listed team is an approved registration holding the group's letter
    have hmem := List.mem_map_of_mem (f := fun g : Group => (g.tournament, g.letter, g.teams))
      ((mem_groupsOf_of_replaced hg hnews).1 hg')
    rw [hv] at hmem
    obtain ⟨L, -, hL⟩ := List.mem_map.1 hmem
    simp only [Prod.mk.injEq] at hL
    rw [← hL.2.2, holding, List.mem_map] at hid
    obtain ⟨a, ha, hid⟩ := hid
    obtain ⟨ha, haL⟩ := List.mem_filter.1 ha
    rw [registrations_regroup] at hr
    rw [← List.inj_on_of_nodup_map hids (mem_approvedOf.1 ha).1 hr hid, ← hL.2.1]
    simpa using haL
  · -- an approved team holding a non-empty letter makes the letter held
    rw [registrations_regroup] at hr
    have happroved : r ∈ s.approvedOf tid := mem_approvedOf.2 ⟨hr, hrt, happ⟩
    have hheld : L ∈ s.heldLetters tid := by
      refine mem_heldLetters.2 ⟨r, happroved, ?_, hL⟩
      rw [hL]
      have hne : L ≠ "" := fun he => hnamed r hr hrt (he ▸ hL)
      simpa [named] using hne
    have hmem : (tid, L, s.holding tid L) ∈ news.map fun g => (g.tournament, g.letter, g.teams) := by
      rw [hv]
      exact List.mem_map_of_mem hheld
    obtain ⟨g, hg', hgL⟩ := List.mem_map.1 hmem
    simp only [Prod.mk.injEq] at hgL
    refine ⟨g, (mem_groupsOf_of_replaced hg hnews).2 hg', hgL.2.1, ?_⟩
    rw [hgL.2.2, holding]
    exact List.mem_map_of_mem (List.mem_filter.2 ⟨happroved, by simp [hL]⟩)

/-- Moving teams to non-empty letters, each move naming a registration of the tournament, and
regrouping keeps every tournament's letters linked. -/
theorem LettersLinked.moveTeams (h : s.LettersLinked) {changes : List (String × Option String)}
    (hchanges : ∀ c ∈ changes, ∃ r ∈ s.tables.registrations,
      r.tournament = tid ∧ r.id = c.1 ∧ named c.2 = true) :
    ((s.reletter changes).regroup tid).2.LettersLinked := by
  have hids₁ : ((s.reletter changes).tables.registrations.map (·.id)) =
      s.tables.registrations.map (·.id) := by
    rw [registrations_reletter, List.map_map]
    exact List.map_congr_left fun r _ => Registration.id_reletter r changes
  -- the letters moved to are named, and the others were
  have hnamed : ∀ r ∈ (s.reletter changes).tables.registrations, r.tournament = tid →
      r.group ≠ some "" := by
    intro r hr hrt
    rw [registrations_reletter] at hr
    obtain ⟨r₀, hr₀, rfl⟩ := List.mem_map.1 hr
    rw [Registration.tournament_reletter] at hrt
    rcases Registration.group_reletter r₀ changes with hg | ⟨c, hc, -, hg⟩
    · rw [hg]
      exact (h.linked tid).named r₀ hr₀ hrt
    · obtain ⟨-, -, -, -, hn⟩ := hchanges c hc
      rw [hg]
      intro he
      rw [he] at hn
      cases hn
  refine h.of_change (by rw [registrations_regroup, hids₁])
    ((sameOutside_reletter h.ids fun c hc => ?_).trans sameOutside_regroup)
    (linkedIn_regroup (hids₁ ▸ h.ids) hnamed)
  obtain ⟨r, hr, hrt, hid, -⟩ := hchanges c hc
  exact ⟨r, hr, hrt, hid⟩

end Store

end TournamentDraw
