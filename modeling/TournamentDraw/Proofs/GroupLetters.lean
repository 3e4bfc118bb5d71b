import TournamentDraw.Proofs.GroupLinks
import TournamentDraw.Proofs.GroupWrites

/-!
# Group letters through every request

The steps of the draw, pot and competition services are the thirteen requests and the bulk pot
assignment (`DrawStep`). Every step, refused or not, keeps the group table keyed and the pot
table sound, so in every store the steps reach from a store with no groups, each tournament's
group letters are apart.

The link between letters and groups is kept by every step except the two that edit groups by
hand: the draws and the regrouping rebuild it, and the pot and competition requests leave
groups and registrations alone. Making a group does not give its teams its letter, and editing
a group leaves a team it takes from another group listed there too, so the link is stated for
runs without them. The regrouping may give letters to registrations that are not approved,
which no group then lists; the link asks an approved registration holding a letter, not every
one, to be listed.
-/

namespace TournamentDraw

namespace Store

variable {s : Store}

/-- In a sound pot table each registration of a tournament has one row. -/
theorem PotsSound.potsOf_nodup (hs : s.PotsSound) (tid : String) :
    ((s.potsOf tid).map (·.registration)).Nodup := by
  have hkeys : ((s.tables.pots.filter (·.tournament == tid)).map PotEntry.key).Nodup :=
    (List.filter_sublist.map _).nodup hs.unique
  -- within a tournament a row's key is its registration
  have hmap : (s.tables.pots.filter (·.tournament == tid)).map PotEntry.key =
      ((s.tables.pots.filter (·.tournament == tid)).map (·.registration)).map (Prod.mk tid) := by
    rw [List.map_map]
    refine List.map_congr_left fun p hp => ?_
    have hpt : p.tournament = tid := by simpa using (List.mem_filter.1 hp).2
    simp [PotEntry.key, hpt]
  rw [hmap] at hkeys
  exact ((potsOf_perm s tid).map _).nodup_iff.2 (hkeys.of_map _)

/-- In a keyed group table the letters of each tournament's groups are apart. -/
theorem GroupsKeyed.nodup_letters (h : s.GroupsKeyed) (tid : String) :
    ((s.groupsOf tid).map (·.letter)).Nodup := by
  have hkeys : ((s.tables.groups.filter (·.tournament == tid)).map Group.key).Nodup :=
    (List.filter_sublist.map _).nodup h.letters
  -- within a tournament a group's key is its letter
  have hmap : (s.tables.groups.filter (·.tournament == tid)).map Group.key =
      ((s.tables.groups.filter (·.tournament == tid)).map (·.letter)).map (Prod.mk tid) := by
    rw [List.map_map]
    refine List.map_congr_left fun g hg => ?_
    have hgt : g.tournament = tid := by simpa using (List.mem_filter.1 hg).2
    simp [Group.key, hgt]
  rw [hmap] at hkeys
  exact ((List.mergeSort_perm _ _).map _).nodup_iff.2 (hkeys.of_map _)

/-- In a keyed group table two groups of a tournament with one letter are one group. -/
theorem GroupsKeyed.eq_of_letter (h : s.GroupsKeyed) {tid : String} {g₁ g₂ : Group}
    (hg₁ : g₁ ∈ s.groupsOf tid) (hg₂ : g₂ ∈ s.groupsOf tid) (hL : g₁.letter = g₂.letter) :
    g₁ = g₂ := by
  rw [mem_groupsOf] at hg₁ hg₂
  refine List.inj_on_of_nodup_map h.letters hg₁.1 hg₂.1 ?_
  simp [Group.key, hg₁.2, hg₂.2, hL]

/-- A store with no groups has a keyed group table. -/
theorem groupsKeyed_of_nil (h : s.tables.groups = []) : s.GroupsKeyed where
  ids := by simp [h]
  numbered g hg := by simp [h] at hg
  letters := by simp [h]

/-- A store with no groups whose registrations hold no letter and have ids apart has its
letters linked. -/
theorem lettersLinked_of_fresh (h : s.tables.groups = [])
    (hids : (s.tables.registrations.map (·.id)).Nodup)
    (hfree : ∀ r ∈ s.tables.registrations, r.group = none) : s.LettersLinked := by
  have hnone : ∀ tid, ∀ g ∈ s.groupsOf tid, False := fun tid g hg => by
    simp [mem_groupsOf, h] at hg
  refine ⟨hids, fun tid => ⟨fun r hr _ => by simp [hfree r hr], fun r _ _ g hg => ?_,
    fun r hr _ _ L hL => ?_⟩⟩
  · exact (hnone tid g hg).elim
  · rw [hfree r hr] at hL
    cases hL

end Store

namespace Txn

variable {α : Type} {s : Store} {i : Seed.Issued}

/-- A request that writes groups keeps a sound pot table sound. -/
theorem potsSound_of_regrouping {t : Txn α} (hm : Moves Effect.regrouping t) (hs : s.PotsSound) :
    (exec t s i).2.1.PotsSound := by
  have h := (hm s i).1
  simp only [Store.potView, Prod.mk.injEq] at h
  exact (hs.of_sublist (h.1 ▸ List.Sublist.refl _) h.2.1 h.2.2).1

theorem potsSound_of_keeps {t : Txn α} (hm : Keeps Store.potView t) (hs : s.PotsSound) :
    (exec t s i).2.1.PotsSound := by
  have h : (exec t s i).2.1.potView = s.potView := hm s i
  simp only [Store.potView, Prod.mk.injEq] at h
  exact (hs.of_sublist (h.1 ▸ List.Sublist.refl _) h.2.1 h.2.2).1

/-- A clean request whose runs that go through leave the letters linked keeps them linked: a
refusal leaves the tables as they were. -/
theorem linked_of_exec {t : Txn α} (hc : Clean t) (h : s.LettersLinked)
    (hok : ∀ a s' i', exec t s i = (.ok a, s', i') → s'.LettersLinked) :
    (exec t s i).2.1.LettersLinked := by
  rcases hr : exec t s i with ⟨r, s', i'⟩
  cases r with
  | ok a => exact hok a s' i' hr
  | error err =>
    have htables : s'.tables = s.tables := hc s i err s' i' hr
    exact h.congr (congrArg (·.registrations) htables) (congrArg (·.groups) htables)

theorem linked_of_keeps {t : Txn α} (hm : Keeps Store.groupView t) (h : s.LettersLinked) :
    (exec t s i).2.1.LettersLinked := by
  have hv : (exec t s i).2.1.groupView = s.groupView := hm s i
  simp only [Store.groupView, Prod.mk.injEq] at hv
  exact h.congr hv.2.1 hv.1

end Txn

/-- Whether a request edits groups by hand. -/
def Request.editsGroup : Request → Bool
  | .createGroup .. => true
  | .updateGroup .. => true
  | _ => false

namespace Request

variable {s : Store}

/-- Every request, refused or not, keeps a sound pot table sound. -/
theorem potsSound (r : Request) (hs : s.PotsSound) (i : Seed.Issued) :
    (Txn.exec r.txn s i).2.1.PotsSound := by
  cases r with
  | executeDraw cfg tid actor groups seed =>
    rw [Request.txn, Txn.exec_discard]
    exact Txn.potsSound_of_regrouping (Txn.moves_executeDraw _ _ _ _ _) hs
  | moveTeams tid actor moves =>
    rw [Request.txn, Txn.exec_discard]
    exact Txn.potsSound_of_regrouping (Txn.moves_moveTeams _ _ _) hs
  | resetDraw tid actor => exact Txn.potsSound_of_regrouping (Txn.moves_resetDraw _ _) hs
  | createGroup tid actor letter teams order =>
    rw [Request.txn, Txn.exec_discard]
    exact Txn.potsSound_of_regrouping (Txn.moves_createGroup _ _ _ _ _) hs
  | updateGroup tid gid actor teams letter =>
    rw [Request.txn, Txn.exec_discard]
    exact Txn.potsSound_of_regrouping (Txn.moves_updateGroup _ _ _ _ _) hs
  | generate cfg tid actor req =>
    rw [Request.txn, Txn.exec_discard]
    exact Txn.potsSound_of_keeps
      ((Txn.keeps_competition fun hsave => Txn.moves_generate hsave _ _ _ _).comp Prod.snd) hs
  | recordScore tid id actor res age =>
    rw [Request.txn, Txn.exec_discard]
    exact Txn.potsSound_of_keeps
      ((Txn.keeps_competition fun hsave => Txn.moves_recordScore hsave _ _ _ _ _).comp Prod.snd) hs
  | forceAdvance tid id team actor age =>
    rw [Request.txn, Txn.exec_discard]
    exact Txn.potsSound_of_keeps
      ((Txn.keeps_competition fun hsave => Txn.moves_forceAdvance hsave _ _ _ _ _).comp Prod.snd)
      hs
  | seedKnockout tid actor age =>
    rw [Request.txn, Txn.exec_discard]
    exact Txn.potsSound_of_keeps
      ((Txn.keeps_competition fun hsave => Txn.moves_seedKnockout hsave _ _ _).comp Prod.snd) hs
  | assignPot tid rid pot actor =>
    rw [Request.txn, Txn.exec_discard]
    exact (Txn.assignPot_assigns tid rid pot actor i hs).1
  | clearPots tid actor =>
    rw [Request.txn, Txn.exec_discard]
    obtain ⟨hsub, hc, he⟩ := Txn.clearPots_drops tid actor s i
    exact (hs.of_sublist hsub hc he).1
  | potDraw tid groups strict actor =>
    rw [Request.txn, Txn.exec_discard]
    exact Txn.potsSound_of_regrouping (Txn.moves_potDraw _ _ _ _) hs

/-- Every request but the two group edits, refused or not, keeps letters linked to groups. -/
theorem linked (r : Request) (hr : r.editsGroup = false) (h : s.LettersLinked)
    (hs : s.PotsSound) (i : Seed.Issued) : (Txn.exec r.txn s i).2.1.LettersLinked := by
  cases r with
  | executeDraw cfg tid actor groups seed =>
    rw [Request.txn, Txn.exec_discard]
    refine Txn.linked_of_exec (Txn.clean_atomically _) h fun a s' i' hok => ?_
    obtain ⟨-, G, -, -, -, -, hG₁, -, hG₂₆, -, -, rfl⟩ := Txn.exec_executeDraw_eq_ok hok
    -- the shuffled approved teams dealt round the groups, each once
    exact h.afterDraw ((Draw.flatten_roundRobin_perm _ hG₁).trans (Draw.seededShuffle_perm _ _))
      (by simpa [Draw.roundRobin] using hG₂₆) _
  | moveTeams tid actor moves =>
    rw [Request.txn, Txn.exec_discard]
    refine Txn.linked_of_exec (Txn.clean_moveTeams _ _ _) h fun a s' i' hok => ?_
    obtain ⟨changes, hchanges, rfl, -⟩ := Txn.exec_moveTeams_eq_ok hok
    exact h.moveTeams hchanges
  | resetDraw tid actor =>
    refine Txn.linked_of_exec (Txn.clean_resetDraw _ _) h fun a s' i' hok => ?_
    obtain ⟨-, -, rfl⟩ := Txn.exec_resetDraw_eq_ok hok
    exact h.afterDraw_nil _
  | createGroup tid actor letter teams order => cases hr
  | updateGroup tid gid actor teams letter => cases hr
  | generate cfg tid actor req =>
    rw [Request.txn, Txn.exec_discard]
    exact Txn.linked_of_keeps
      ((Txn.keeps_competition fun hsave => Txn.moves_generate hsave _ _ _ _).comp Prod.fst) h
  | recordScore tid id actor res age =>
    rw [Request.txn, Txn.exec_discard]
    exact Txn.linked_of_keeps
      ((Txn.keeps_competition fun hsave => Txn.moves_recordScore hsave _ _ _ _ _).comp Prod.fst) h
  | forceAdvance tid id team actor age =>
    rw [Request.txn, Txn.exec_discard]
    exact Txn.linked_of_keeps
      ((Txn.keeps_competition fun hsave => Txn.moves_forceAdvance hsave _ _ _ _ _).comp Prod.fst)
      h
  | seedKnockout tid actor age =>
    rw [Request.txn, Txn.exec_discard]
    exact Txn.linked_of_keeps
      ((Txn.keeps_competition fun hsave => Txn.moves_seedKnockout hsave _ _ _).comp Prod.fst) h
  | assignPot tid rid pot actor =>
    rw [Request.txn, Txn.exec_discard]
    exact Txn.linked_of_keeps (Txn.keeps_assignPot _ _ _ _) h
  | clearPots tid actor =>
    rw [Request.txn, Txn.exec_discard]
    exact Txn.linked_of_keeps (Txn.keeps_clearPots _ _) h
  | potDraw tid groups strict actor =>
    rw [Request.txn, Txn.exec_discard]
    refine Txn.linked_of_exec (Txn.clean_atomically _) h fun a s' i' hok => ?_
    obtain ⟨-, G, -, -, -, -, hG₂, -, hG₂₆, -, hsum, dealt, hdeal, rfl⟩ :=
      Txn.exec_potDraw_eq_ok hok
    have hS4 : (Draw.potShuffle tid (s.approvedPots tid)).length = 4 := by
      rw [Draw.length_potShuffle]
      rfl
    have hlen := (Draw.distributePots_eq_ok hS4 (by omega) hdeal).1
    -- the shuffled pots hold the approved teams, each once, and the deal places each once
    exact h.afterDraw ((Draw.flatten_distributePots_perm hS4 (by omega) hdeal).trans
      ((Draw.flatten_potShuffle_perm tid _).trans
        (Store.approvedPots_perm (hs.potsOf_nodup tid) hsum))) (by omega) _

end Request

/-! ### Bulk pot assignment -/

namespace Store

variable {s : Store}

theorem groupView_assignPotStep (tid : String)
    (acc : Except ServiceError (List PotEntry) × Store × Seed.Issued) (q : PotRequest) :
    (assignPotStep tid acc q).2.1.groupView = acc.2.1.groupView := by
  obtain ⟨r, s, i⟩ := acc
  obtain ⟨reg, pot⟩ := q
  cases r with
  | error e => rfl
  | ok done =>
    cases reg with
    | none => rfl
    | some rid =>
      cases pot with
      | none => rfl
      | some pot =>
        have h : (Txn.exec (Txn.putInPot tid rid pot) s i).2.1.groupView = s.groupView :=
          (Txn.moves_putInPot (fun s _ _ _ => s.groupView_upsertPot _ _ _) tid rid pot :
            Txn.Keeps groupView _) s i
        simp only [assignPotStep]
        split <;> simp_all

/-- A bulk pot assignment, refused anywhere or not, leaves the groups and registrations. -/
theorem groupView_assignPots (i : Seed.Issued) (tid : String) (actor : Actor)
    (reqs : List PotRequest) : (s.assignPots i tid actor reqs).2.1.groupView = s.groupView := by
  have hauth : (Txn.exec (Txn.authorize tid actor .managePots) s i).2.1.groupView =
      s.groupView :=
    (Txn.moves_authorize tid actor .managePots : Txn.Keeps groupView _) s i
  unfold assignPots
  rcases h : Txn.exec (Txn.authorize tid actor .managePots) s i with ⟨r, s₁, i₁⟩
  rw [h] at hauth
  cases r with
  | error e => exact hauth
  | ok t =>
    exact ((Txn.Effect.keeping groupView).foldl
      (fun acc : Except ServiceError (List PotEntry) × Store × Seed.Issued => acc.2.1)
      (groupView_assignPotStep tid) reqs _).trans hauth

end Store

/-! ### Runs -/

/-- A step of the draw, pot and competition services: one request, or a bulk pot assignment. -/
inductive DrawStep where
  | request (r : Request)
  | assignPots (tid : String) (actor : Actor) (reqs : List PotRequest)

namespace DrawStep

/-- The store a step leaves, whether it is refused or not. -/
def run : DrawStep → Store → Seed.Issued → Store
  | .request r, s, i => (Txn.exec r.txn s i).2.1
  | .assignPots tid actor reqs, s, i => (s.assignPots i tid actor reqs).2.1

/-- Whether a step edits groups by hand. -/
def editsGroup : DrawStep → Bool
  | .request r => r.editsGroup
  | .assignPots .. => false

/-- The stores that steps allowed by `ok` reach from a store, each step with any seeds. -/
inductive Reaches (ok : DrawStep → Prop) (s₀ : Store) : Store → Prop
  | start : Reaches ok s₀ s₀
  | step {s : Store} (st : DrawStep) (i : Seed.Issued) :
      ok st → Reaches ok s₀ s → Reaches ok s₀ (st.run s i)

variable {s : Store}

theorem run_keyed (st : DrawStep) (h : s.GroupsKeyed) (i : Seed.Issued) :
    (st.run s i).GroupsKeyed := by
  cases st with
  | request r => exact r.keyed h i
  | assignPots tid actor reqs =>
    have hv := s.groupView_assignPots i tid actor reqs
    simp only [Store.groupView, Prod.mk.injEq] at hv
    exact h.congr hv.1 hv.2.2

theorem run_potsSound (st : DrawStep) (hs : s.PotsSound) (i : Seed.Issued) :
    (st.run s i).PotsSound := by
  cases st with
  | request r => exact r.potsSound hs i
  | assignPots tid actor reqs => exact (Store.assignPots_assigns i tid actor reqs hs).1

theorem run_linked (st : DrawStep) (hst : st.editsGroup = false) (h : s.LettersLinked)
    (hs : s.PotsSound) (i : Seed.Issued) : (st.run s i).LettersLinked := by
  cases st with
  | request r => exact r.linked hst h hs i
  | assignPots tid actor reqs =>
    have hv := s.groupView_assignPots i tid actor reqs
    simp only [Store.groupView, Prod.mk.injEq] at hv
    exact h.congr hv.2.1 hv.1

/-- Every store any steps reach from a keyed group table has a keyed one. -/
theorem Reaches.keyed {ok : DrawStep → Prop} {s₀ : Store} (h₀ : s₀.GroupsKeyed)
    (h : Reaches ok s₀ s) : s.GroupsKeyed := by
  induction h with
  | start => exact h₀
  | step st i _ _ ih => exact st.run_keyed ih i

/-- Every store that steps other than group edits reach from linked letters and a sound pot
table has them too. -/
theorem Reaches.linked {s₀ : Store} (h₀ : s₀.LettersLinked) (hp₀ : s₀.PotsSound)
    (h : Reaches (fun st => st.editsGroup = false) s₀ s) : s.LettersLinked ∧ s.PotsSound := by
  induction h with
  | start => exact ⟨h₀, hp₀⟩
  | step st i hst _ ih => exact ⟨st.run_linked hst ih.1 ih.2 i, st.run_potsSound ih.2 i⟩

end DrawStep

open DrawStep in
/-- **Group letters stay apart, and linked to the groups when no group is edited by hand.**
From a store with no groups and no pot rows, whose registrations hold no letter and have ids
apart, every run of the draw, pot and competition requests and bulk pot assignments leaves the
group letters of each tournament apart. A run in which no group is made or edited by hand
moreover leaves every registration listed in a group of its tournament holding that group's
letter, so listed in at most one of them, and leaves an approved registration holding a letter
exactly when it is listed in its tournament's group with that letter. -/
theorem group_letters_apart_and_linked {s₀ : Store} (hgroups : s₀.tables.groups = [])
    (hpots : s₀.tables.pots = []) (hids : (s₀.tables.registrations.map (·.id)).Nodup)
    (hfree : ∀ r ∈ s₀.tables.registrations, r.group = none) :
    (∀ s, Reaches (fun _ => True) s₀ s → ∀ tid, ((s.groupsOf tid).map (·.letter)).Nodup) ∧
    (∀ s, Reaches (fun st => st.editsGroup = false) s₀ s →
      ∀ r ∈ s.tables.registrations,
        (∀ g ∈ s.groupsOf r.tournament, r.id ∈ g.teams → r.group = some g.letter) ∧
        (∀ g₁ ∈ s.groupsOf r.tournament, ∀ g₂ ∈ s.groupsOf r.tournament,
          r.id ∈ g₁.teams → r.id ∈ g₂.teams → g₁ = g₂) ∧
        (r.status = "APPROVED" → ∀ L, r.group = some L ↔
          ∃ g ∈ s.groupsOf r.tournament, g.letter = L ∧ r.id ∈ g.teams)) := by
  have hkeyed₀ := Store.groupsKeyed_of_nil hgroups
  refine ⟨fun s h tid => (h.keyed hkeyed₀).nodup_letters tid, fun s h r hr => ?_⟩
  have hkeyed := h.keyed hkeyed₀
  obtain ⟨hlinked, -⟩ := h.linked (Store.lettersLinked_of_fresh hgroups hids hfree)
    (Store.potsSound_of_nil hpots)
  have hin := hlinked.linked r.tournament
  refine ⟨fun g hg hid => hin.listed r hr rfl g hg hid, ?_, fun happ L => ⟨?_, ?_⟩⟩
  · -- two groups listing it both have its letter
    intro g₁ hg₁ g₂ hg₂ hid₁ hid₂
    refine hkeyed.eq_of_letter hg₁ hg₂ (Option.some.inj ?_)
    rw [← hin.listed r hr rfl g₁ hg₁ hid₁, hin.listed r hr rfl g₂ hg₂ hid₂]
  · exact hin.held r hr rfl happ L
  · rintro ⟨g, hg, rfl, hid⟩
    exact hin.listed r hr rfl g hg hid

/-- The two-team cup drawn at random keeps its letters apart and linked. -/
theorem group_letters_after_cup_draw :
    let s := (DrawStep.request (.executeDraw .null "t1" {} .null (some "cup"))).run cupStore {}
    (∀ tid, ((s.groupsOf tid).map (·.letter)).Nodup) ∧
      ∀ r ∈ s.tables.registrations,
        (∀ g ∈ s.groupsOf r.tournament, r.id ∈ g.teams → r.group = some g.letter) ∧
        (∀ g₁ ∈ s.groupsOf r.tournament, ∀ g₂ ∈ s.groupsOf r.tournament,
          r.id ∈ g₁.teams → r.id ∈ g₂.teams → g₁ = g₂) ∧
        (r.status = "APPROVED" → ∀ L, r.group = some L ↔
          ∃ g ∈ s.groupsOf r.tournament, g.letter = L ∧ r.id ∈ g.teams) :=
  have h := @group_letters_apart_and_linked cupStore rfl rfl (by decide) (by decide)
  ⟨h.1 _ (.step _ {} trivial .start), h.2 _ (.step _ {} rfl .start)⟩

/-- Making a group by hand lists its teams without giving them its letter. -/
theorem made_group_lists_team_without_letter :
    let s := (DrawStep.request (.createGroup "t1" {} "A" ["r1"] (.int 0))).run cupStore {}
    ∃ r ∈ s.tables.registrations, ∃ g ∈ s.tables.groups,
      g.tournament = r.tournament ∧ r.id ∈ g.teams ∧ r.group = none := by
  decide

end TournamentDraw
