import TournamentDraw.Proofs.GroupKeys
import TournamentDraw.Proofs.PotTable
import TournamentDraw.Proofs.PotDraw

/-!
# What each request writes

The requests of the draw, pot and competition services are sorted by what they may write. The
draws, the regrouping and the group edits write groups, group letters and the tournament's
flags: they leave the pot rows, the pot numbers and the entrants alone and hand out group
numbers only forward (`Txn.Effect.regrouping`). The pot requests write pot rows only, and the
competition requests stored competitions only: both leave the groups, the registrations and
the group numbers as they were (`Store.groupView`).

What a group request leaves when it goes through is read back as a change of the store
(`exec_createGroup_eq_ok`, `exec_updateGroup_eq_ok`, `exec_moveTeams_eq_ok`), and from all of it
every request, refused or not, keeps the group table keyed.
-/

namespace TournamentDraw

namespace Txn

/-- What the requests that write groups may do: leave the pot rows, the pot numbers and the
entrants as they were, and hand out group numbers only forward. -/
def Effect.regrouping : Effect where
  allows s s' := s'.potView = s.potView ∧ s.counters.groups ≤ s'.counters.groups
  refl _ := ⟨rfl, le_rfl⟩
  trans h₁ h₂ := ⟨h₂.1.trans h₁.1, h₁.2.trans h₂.2⟩

@[simp] theorem Effect.regrouping_allows {s s' : Store} :
    Effect.regrouping.allows s s' ↔
      s'.potView = s.potView ∧ s.counters.groups ≤ s'.counters.groups := Iff.rfl

/-- A refusal puts the tables back and keeps the numbers handed out, which regrouping allows. -/
theorem Effect.regrouping_rollback {s s' : Store} (h : Effect.regrouping.allows s s') :
    Effect.regrouping.allows s (s.rollback s') := by
  have hpots : s'.counters.pots = s.counters.pots := congrArg (fun v => v.2.1) h.1
  exact ⟨Prod.ext rfl (Prod.ext hpots rfl), h.2⟩

end Txn

namespace Store

open Txn

variable {s : Store} {tid : String}

/-- Giving a registration a group letter keeps the entrants. -/
@[simp] theorem entrants_modifyRegistration (rid : String) (letter : Option String) :
    (s.modifyRegistration rid fun r => { r with group := letter }).entrants = s.entrants := by
  simp only [entrants, modifyRegistration, List.map_map]
  refine List.map_congr_left fun r _ => ?_
  by_cases h : r.id = rid <;> simp [h]

@[simp] theorem entrants_clearGroupLetters : (s.clearGroupLetters tid).entrants = s.entrants := by
  simp only [entrants, registrations_clearGroupLetters, List.map_map]
  refine List.map_congr_left fun r _ => ?_
  by_cases h : r.tournament = tid <;> simp [h]

@[simp] theorem potView_modifyRegistration (rid : String) (letter : Option String) :
    (s.modifyRegistration rid fun r => { r with group := letter }).potView = s.potView := by
  simp only [potView, entrants_modifyRegistration]
  rfl

theorem regrouping_addGroup (letter : String) (teams : List String) (order : Value) :
    Effect.regrouping.allows s (s.addGroup tid letter teams order).2 :=
  ⟨rfl, by simp⟩

theorem regrouping_assignLetter (ids : List String) (letter : String) :
    Effect.regrouping.allows s (s.assignLetter ids letter) := by
  unfold assignLetter
  exact Effect.regrouping.foldl id (fun _ _ => ⟨potView_modifyRegistration _ _, le_rfl⟩) ids s

theorem regrouping_writeGroup (acc : List Group × Store) (x : List String × Nat) :
    Effect.regrouping.allows acc.2 (writeGroup tid acc x).2 := by
  rw [writeGroup_eq]
  exact Effect.regrouping.trans (regrouping_addGroup _ _ _) (regrouping_assignLetter _ _)

/-- Deleting a tournament's groups and taking its letters away. -/
theorem regrouping_clearDraw :
    Effect.regrouping.allows s ((s.deleteGroups tid).clearGroupLetters tid) := by
  refine ⟨?_, le_rfl⟩
  simp only [potView, entrants_clearGroupLetters]
  rfl

theorem regrouping_modifyTournament (f : Tournament → Tournament) :
    Effect.regrouping.allows s (s.modifyTournament tid f) :=
  Effect.regrouping.refl s

theorem regrouping_reletter (changes : List (String × Option String)) :
    Effect.regrouping.allows s (s.reletter changes) := by
  unfold reletter
  exact Effect.regrouping.foldl id (fun _ _ => ⟨potView_modifyRegistration _ _, le_rfl⟩) changes s

theorem regrouping_regroup : Effect.regrouping.allows s (s.regroup tid).2 := by
  rw [regroup_eq]
  refine Effect.regrouping.trans (b := s.deleteGroups tid) ⟨rfl, le_rfl⟩ ?_
  exact Effect.regrouping.foldl (Prod.snd : List Group × Store → Store)
    (fun _ _ => by rw [regroupStep_snd]; exact regrouping_addGroup _ _ _) _ ([], _)

theorem regrouping_groupNumber : Effect.regrouping.allows s s.groupNumber.2 :=
  ⟨rfl, by simp⟩

theorem regrouping_insertGroup (g : Group) : Effect.regrouping.allows s (s.insertGroup g) :=
  Effect.regrouping.refl s

theorem regrouping_editGroup (g : Group) (teams : List String) (letter : String) :
    Effect.regrouping.allows s (s.editGroup tid g teams letter) := by
  refine ⟨?_, (congrArg Counters.groups (groups_editGroup g teams letter).2).ge⟩
  -- the letters given and taken away change registrations only
  unfold editGroup
  rw [keeps_foldl potView, show ∀ s' : Store, (s'.modifyGroup g.id fun g =>
    { g with teams := teams, letter := letter }).potView = s'.potView from fun _ => rfl,
    keeps_foldl potView]
  · intro s x
    split
    · split
      · split
        · exact potView_modifyRegistration _ _
        · rfl
      · rfl
    · rfl
  · intro s x
    split
    · exact potView_modifyRegistration _ _
    · rfl

end Store

namespace Txn

variable {α : Type} {e : Effect}

/-- A rolled back group request does what a group request may: its tables are put back, and
the counters it leaves only went forward. -/
theorem regrouping_rollback {s s' : Store} (h : Effect.regrouping.allows s s') :
    Effect.regrouping.allows s (s.rollback s') := by
  obtain ⟨hview, hgroups⟩ := h
  simp only [Store.potView, Prod.mk.injEq] at hview
  exact ⟨by simp only [Store.potView, Prod.mk.injEq]; exact ⟨rfl, hview.2.1, rfl⟩, hgroups⟩

theorem moves_executeDraw (cfg : Value) (tid : String) (actor : Actor) (groups : Value)
    (seed : Option String) : Moves Effect.regrouping (executeDraw cfg tid actor groups seed) := by
  unfold executeDraw
  refine moves_atomically ?_ fun _ _ => regrouping_rollback
  exact (moves_authorize _ _ _).bind fun _ => (moves_refuseIf _ _).bind fun _ =>
    (moves_refuseIf _ _).bind fun _ => moves_get.bind fun _ => (moves_refuseIf _ _).bind fun _ =>
    (moves_ofExcept _).bind fun _ => (moves_ite (moves_pure _) (moves_ofExcept _)).bind fun _ =>
    (moves_operand _).bind fun _ => (moves_refuseIf _ _).bind fun _ =>
    (moves_operand _).bind fun _ => (moves_refuseIf _ _).bind fun _ =>
    (moves_operand _).bind fun _ => (moves_refuseIf _ _).bind fun _ =>
    (moves_ite (moves_pure _) moves_freshDrawSeed).bind fun _ =>
    (moves_modify fun _ => Store.regrouping_clearDraw).bind fun _ =>
    (moves_count _).bind fun _ => (moves_bound _).bind fun _ =>
    (moves_writeGroups (fun _ _ => Store.regrouping_writeGroup _ _) _).bind fun _ =>
    (moves_modify fun _ => Store.regrouping_modifyTournament _).bind fun _ => moves_pure _

theorem moves_potDraw (tid : String) (groups : Value) (strict : Bool) (actor : Actor) :
    Moves Effect.regrouping (potDraw tid groups strict actor) := by
  unfold potDraw
  refine moves_atomically ?_ fun _ _ => regrouping_rollback
  exact (moves_authorize _ _ _).bind fun _ => (moves_refuseIf _ _).bind fun _ =>
    moves_get.bind fun _ => (moves_refuseIf _ _).bind fun _ =>
    (moves_operand _).bind fun _ => (moves_refuseIf _ _).bind fun _ =>
    (moves_operand _).bind fun _ => (moves_refuseIf _ _).bind fun _ =>
    (moves_refuseIf _ _).bind fun _ => moves_get.bind fun _ =>
    (moves_refuseIf _ _).bind fun _ => (moves_count _).bind fun _ =>
    (moves_ofExcept _).bind fun _ =>
    (moves_modify fun _ => Store.regrouping_clearDraw).bind fun _ =>
    (moves_writeGroups (fun _ _ => Store.regrouping_writeGroup _ _) _).bind fun _ =>
    (moves_modify fun _ => Store.regrouping_modifyTournament _).bind fun _ => moves_pure _

theorem moves_resetDraw (tid : String) (actor : Actor) :
    Moves Effect.regrouping (resetDraw tid actor) := by
  unfold resetDraw
  exact (moves_authorize _ _ _).bind fun _ => moves_atomically (moves_modify fun _ =>
    Effect.regrouping.trans Store.regrouping_clearDraw (Store.regrouping_modifyTournament _))
    fun _ _ => regrouping_rollback

theorem moves_moveTeams (tid : String) (actor : Actor) (moves : List Move) :
    Moves Effect.regrouping (moveTeams tid actor moves) := by
  unfold moveTeams regroup
  exact (moves_authorize _ _ _).bind fun _ => (moves_mapM (moves_checkMove tid) _).bind fun _ =>
    moves_atomically ((moves_modify fun _ => Store.regrouping_reletter _).bind fun _ =>
      (moves_bound _).bind fun _ => moves_modifyGet fun _ => Store.regrouping_regroup)
      fun _ _ => regrouping_rollback

theorem moves_createGroup (tid : String) (actor : Actor) (letter : String)
    (teams : List String) (order : Value) :
    Moves Effect.regrouping (createGroup tid actor letter teams order) := by
  unfold createGroup
  exact (moves_authorize _ _ _).bind fun _ => (moves_bound _).bind fun _ =>
    moves_get.bind fun _ => (moves_refuseIf _ _).bind fun _ =>
    (moves_checkTeams _ _).bind fun _ =>
    (moves_modifyGet fun _ => Store.regrouping_groupNumber).bind fun _ =>
    (moves_cell _).bind fun _ =>
    (moves_modify fun _ => Store.regrouping_insertGroup _).bind fun _ => moves_pure _

theorem moves_updateGroup (tid gid : String) (actor : Actor) (teams : Option (List String))
    (letter : Option String) :
    Moves Effect.regrouping (updateGroup tid gid actor teams letter) := by
  unfold updateGroup
  exact (moves_authorize _ _ _).bind fun _ => (moves_bound _).bind fun _ =>
    moves_get.bind fun _ => (moves_found _ _).bind fun _ =>
    (moves_checkLetter _ _ _).bind fun _ => (moves_checkNewTeams _ _).bind fun _ =>
    moves_atomically ((moves_modify fun _ => Store.regrouping_editGroup _ _ _).bind fun _ =>
      moves_get.bind fun _ => moves_found _ _) fun _ _ => regrouping_rollback

/-! ### Competition and pot requests -/

/-- The competition requests write nothing but the stored competition: they move within any
effect that allows saving a competition. -/
theorem moves_generate (hsave : ∀ s tid age data, e.allows s (s.saveBracket tid age data))
    (cfg : Value) (tid : String) (actor : Actor) (req : CompetitionRequest) :
    Moves e (generate cfg tid actor req) := by
  unfold generate
  exact (moves_authorize _ _ _).bind fun _ => moves_get.bind fun _ =>
    (moves_formatOf _).bind fun _ => (moves_givenOr _ _ _ _).bind fun _ =>
    (moves_givenOr _ _ _ _).bind fun _ => (moves_givenOr _ _ _ _).bind fun _ =>
    (moves_competitionSeed _ _).bind fun _ =>
    (moves_ite (moves_groupStage _ _ _ _ _ _) (moves_knockoutStage _ _ _ _ _ _)).bind fun _ =>
    (moves_bound _).bind fun _ => (moves_modify fun _ => hsave _ _ _ _).bind fun _ => moves_pure _

theorem moves_onMatch (hsave : ∀ s tid age data, e.allows s (s.saveBracket tid age data))
    (tid : String) (age : Option String) (id : String) (st : Step Match) :
    Moves e (onMatch tid age id st) := by
  unfold onMatch
  exact (moves_stored _ _).bind fun _ => (moves_refuseIf _ _).bind fun _ =>
    (moves_runStep _ _).bind fun _ => (moves_modify fun _ => hsave _ _ _ _).bind fun _ =>
    moves_pure _

theorem moves_recordScore (hsave : ∀ s tid age data, e.allows s (s.saveBracket tid age data))
    (tid id : String) (actor : Actor) (r : Result) (age : Option String) :
    Moves e (recordScore tid id actor r age) := by
  unfold recordScore
  -- the scores are checked in a loop that only refuses
  refine (moves_authorize _ _ _).bind fun _ =>
    (moves_forIn (fun _ _ => ?_) _ _).bind fun _ => moves_onMatch hsave _ _ _ _
  exact moves_ite ((moves_operand _).bind fun _ =>
    moves_ite ((moves_refuse _).bind fun _ => moves_pure _) (moves_pure _)) (moves_pure _)

theorem moves_forceAdvance (hsave : ∀ s tid age data, e.allows s (s.saveBracket tid age data))
    (tid id team : String) (actor : Actor) (age : Option String) :
    Moves e (forceAdvance tid id team actor age) := by
  unfold forceAdvance
  exact (moves_authorize _ _ _).bind fun _ => moves_onMatch hsave _ _ _ _

theorem moves_seedKnockout (hsave : ∀ s tid age data, e.allows s (s.saveBracket tid age data))
    (tid : String) (actor : Actor) (age : Option String) :
    Moves e (seedKnockout tid actor age) := by
  unfold seedKnockout
  -- three guards, each a refusal or the rest of the request
  refine (moves_authorize _ _ _).bind fun _ => (moves_stored _ _).bind fun _ =>
    moves_guard fun _ => moves_guard fun _ => moves_guard fun _ => ?_
  exact (moves_tables _ _).bind fun _ => (moves_mapM (fun _ => moves_operand _) _).bind fun _ =>
    (moves_operand _).bind fun _ => (moves_ofStep _).bind fun _ =>
    (moves_runStep _ _).bind fun _ => (moves_modify fun _ => hsave _ _ _ _).bind fun _ =>
    moves_pure _

/-- A pot placement writes nothing but what putting a registration into a pot writes. -/
theorem moves_putInPot (hup : ∀ s tid rid k, e.allows s (s.upsertPot tid rid k).2)
    (tid rid : String) (pot : Value) : Moves e (putInPot tid rid pot) := by
  intro s i
  rcases exec_putInPot tid rid pot s i with ⟨err, h⟩ | ⟨p, s', h, -⟩
  · rw [h]
    exact e.refl s
  · obtain ⟨-, k, -, -, -, hs', -⟩ := exec_putInPot_eq_ok h
    rw [h]
    have hk := hup s tid rid k
    rwa [hs'] at hk

theorem moves_assignPot (hup : ∀ s tid rid k, e.allows s (s.upsertPot tid rid k).2)
    (tid rid : String) (pot : Value) (actor : Actor) : Moves e (assignPot tid rid pot actor) :=
  (moves_authorize _ _ _).bind fun _ => moves_putInPot hup _ _ _

theorem moves_clearPots (hdel : ∀ s tid, e.allows s (s.deletePots tid).2) (tid : String)
    (actor : Actor) : Moves e (clearPots tid actor) :=
  (moves_authorize _ _ _).bind fun _ s _ => hdel s tid

/-! ### Group requests that go through -/

section Through

variable {s s' : Store} {i i' : Seed.Issued}

theorem exec_found_eq_ok {o : Option α} {err : ServiceError} {a : α} :
    exec (found o err) s i = (.ok a, s', i') ↔ o = some a ∧ s' = s ∧ i' = i := by
  cases o with
  | none => simp [found]
  | some b => simp [found, eq_comm]

theorem checkTeams_cons (tid id : String) (ids : List String) :
    checkTeams tid (id :: ids) = (do
      bound [id]
      refuseIf ((← get).registrationIn? tid id).isNone (.registrationNotFound id)) >>= fun _ =>
      checkTeams tid ids := rfl

/-- The team checks go through only when every listed team is registered in the tournament,
and change nothing. -/
theorem exec_checkTeams_eq_ok {tid : String} :
    ∀ {ids : List String} {s s' : Store} {i i' : Seed.Issued} {u : PUnit},
      exec (checkTeams tid ids) s i = (.ok u, s', i') →
        s' = s ∧ i' = i ∧ ∀ id ∈ ids, (s.registrationIn? tid id).isSome
  | [], _, _, _, _, _, h => by
    simp only [checkTeams, List.forM, exec_pure, Prod.mk.injEq] at h
    exact ⟨h.2.1.symm, h.2.2.symm, by simp⟩
  | id :: ids, s, s', i, i', u, h => by
    rw [checkTeams_cons] at h
    simp only [exec_bind_eq_ok, exec_bound, exec_get, exec_refuseIf_eq_ok, Prod.mk.injEq,
      Except.mapError] at h
    obtain ⟨-, s₁, i₁, ⟨-, s₂, i₂, ⟨-, rfl, rfl⟩, a, s₃, i₃, ⟨ha, rfl, rfl⟩, hnone, rfl, rfl⟩, h⟩ :=
      h
    cases Except.ok.inj ha
    obtain ⟨rfl, rfl, hrest⟩ := exec_checkTeams_eq_ok h
    refine ⟨rfl, rfl, List.forall_mem_cons.2 ⟨?_, hrest⟩⟩
    simpa using hnone

/-- A group made by hand that goes through had a letter no group of the tournament has and
registered teams; it is the next group added under that letter. -/
theorem exec_createGroup_eq_ok {tid : String} {actor : Actor} {letter : String}
    {teams : List String} {order : Value} {g : Group}
    (h : exec (createGroup tid actor letter teams order) s i = (.ok g, s', i')) :
    s.groupByLetter? tid letter = none ∧ (∀ id ∈ teams, (s.registrationIn? tid id).isSome) ∧
      ∃ o, (g, s') = s.addGroup tid letter teams o ∧ i' = i := by
  simp only [createGroup, exec_bind_eq_ok, exec_authorize_eq_ok, exec_bound, exec_get,
    exec_refuseIf_eq_ok, exec_modifyGet, exec_cell, exec_modify, exec_pure, Prod.mk.injEq,
    Except.ok.injEq] at h
  obtain ⟨-, s₁, i₁, ⟨-, rfl, rfl⟩, -, s₂, i₂, ⟨-, rfl, rfl⟩, st, s₃, i₃, ⟨rfl, rfl, rfl⟩, -, s₄, i₄,
    ⟨hfree, rfl, rfl⟩, u, s₅, i₅, hteams, num, s₆, i₆, ⟨rfl, rfl, rfl⟩, o, s₇, i₇, ⟨-, rfl, rfl⟩,
    -, s₈, i₈, ⟨-, rfl, rfl⟩, rfl, rfl, rfl⟩ := h
  obtain ⟨rfl, rfl, hreg⟩ := exec_checkTeams_eq_ok hteams
  exact ⟨by simpa using hfree, hreg, o, rfl, rfl⟩

/-- A letter check that goes through changes nothing, and leaves the group its own letter or a
non-empty letter no group of the tournament has. -/
theorem exec_checkLetter_eq_ok {tid : String} {g : Group} {letter : Option String} {u : PUnit}
    (h : exec (checkLetter tid g letter) s i = (.ok u, s', i')) :
    s' = s ∧ i' = i ∧
      ∀ l, letter = some l → l = g.letter ∨ (l ≠ "" ∧ s.groupByLetter? tid l = none) := by
  cases letter with
  | none =>
    simp only [checkLetter, exec_pure, Prod.mk.injEq] at h
    exact ⟨h.2.1.symm, h.2.2.symm, by simp⟩
  | some l =>
    by_cases hl : l = g.letter
    · simp only [checkLetter, hl, ne_eq, not_true_eq_false, if_false, exec_pure,
        Prod.mk.injEq] at h
      exact ⟨h.2.1.symm, h.2.2.symm, by simp [hl]⟩
    · simp only [checkLetter, ne_eq, hl, not_false_eq_true, if_true, exec_bind_eq_ok,
        exec_refuseIf_eq_ok, exec_bound, exec_get, Prod.mk.injEq, Except.ok.injEq] at h
      obtain ⟨-, s₁, i₁, ⟨hne, rfl, rfl⟩, -, s₂, i₂, ⟨-, rfl, rfl⟩, a, s₃, i₃, ⟨rfl, rfl, rfl⟩,
        hfree, rfl, rfl⟩ := h
      refine ⟨rfl, rfl, fun l' hl' => .inr ?_⟩
      cases Option.some.inj hl'
      exact ⟨by simpa using hne, by simpa using hfree⟩

theorem exec_checkNewTeams_eq_ok {tid : String} {teams : Option (List String)} {u : PUnit}
    (h : exec (checkNewTeams tid teams) s i = (.ok u, s', i')) : s' = s ∧ i' = i := by
  cases teams with
  | none =>
    simp only [checkNewTeams, exec_pure, Prod.mk.injEq] at h
    exact ⟨h.2.1.symm, h.2.2.symm⟩
  | some ts =>
    simp only [checkNewTeams, exec_bind_eq_ok, exec_refuseIf_eq_ok] at h
    obtain ⟨-, s₁, i₁, ⟨-, rfl, rfl⟩, h⟩ := h
    obtain ⟨rfl, rfl, -⟩ := exec_checkTeams_eq_ok h
    exact ⟨rfl, rfl⟩

/-- A group edit that goes through found the group in the tournament, checked that its new
letter is its own or a non-empty letter no group of the tournament has, and edited it. -/
theorem exec_updateGroup_eq_ok {tid gid : String} {actor : Actor} {teams : Option (List String)}
    {letter : Option String} {g' : Group}
    (h : exec (updateGroup tid gid actor teams letter) s i = (.ok g', s', i')) :
    ∃ g, s.groupIn? tid gid = some g ∧
      (∀ l, letter = some l → l = g.letter ∨ (l ≠ "" ∧ s.groupByLetter? tid l = none)) ∧
      s' = s.editGroup tid g (teams.getD g.teams)
        (if named letter then letter.getD g.letter else g.letter) ∧ i' = i := by
  simp only [updateGroup, exec_bind_eq_ok, exec_authorize_eq_ok, exec_bound, exec_get,
    exec_found_eq_ok, exec_modify, exec_atomically_eq_ok, Prod.mk.injEq, Except.ok.injEq] at h
  obtain ⟨-, s₁, i₁, ⟨-, rfl, rfl⟩, -, s₂, i₂, ⟨-, rfl, rfl⟩, a, s₃, i₃, ⟨rfl, rfl, rfl⟩, g, s₄, i₄,
    ⟨hg, rfl, rfl⟩, u, s₅, i₅, hletter, u', s₆, i₆, hteams, -, s₇, i₇, ⟨-, rfl, rfl⟩, b, s₈, i₈,
    ⟨rfl, rfl, rfl⟩, -, rfl, rfl⟩ := h
  obtain ⟨rfl, rfl, hfree⟩ := exec_checkLetter_eq_ok hletter
  obtain ⟨rfl, rfl⟩ := exec_checkNewTeams_eq_ok hteams
  exact ⟨g, hg, hfree, rfl, rfl⟩

/-- A map of checks over a list goes through only when each check does; when no check changes
the store or the seeds, neither does the map, and every answer is one a check gave. -/
theorem exec_mapM_eq_ok {β γ : Type} {f : β → Txn γ} {P : γ → Prop} {s₀ : Store}
    {i₀ : Seed.Issued}
    (hf : ∀ x c s' i', exec (f x) s₀ i₀ = (.ok c, s', i') → s' = s₀ ∧ i' = i₀ ∧ P c) :
    ∀ {xs : List β} {cs : List γ} {s' : Store} {i' : Seed.Issued},
      exec (xs.mapM f) s₀ i₀ = (.ok cs, s', i') → s' = s₀ ∧ i' = i₀ ∧ ∀ c ∈ cs, P c
  | [], cs, s', i', h => by
    simp only [List.mapM_nil, exec_pure, Prod.mk.injEq, Except.ok.injEq] at h
    obtain ⟨rfl, rfl, rfl⟩ := h
    exact ⟨rfl, rfl, by simp⟩
  | x :: xs, cs, s', i', h => by
    simp only [List.mapM_cons, exec_bind_eq_ok, exec_pure, Prod.mk.injEq, Except.ok.injEq] at h
    obtain ⟨c, s₁, i₁, h₁, cs', s₂, i₂, h₂, rfl, rfl, rfl⟩ := h
    obtain ⟨rfl, rfl, hc⟩ := hf x c s₁ i₁ h₁
    obtain ⟨rfl, rfl, hcs⟩ := exec_mapM_eq_ok hf h₂
    exact ⟨rfl, rfl, List.forall_mem_cons.2 ⟨hc, hcs⟩⟩

/-- A checked move names a registration of the tournament and a non-empty letter. -/
theorem exec_checkMove_eq_ok {tid : String} {m : Move} {c : String × Option String}
    (h : exec (checkMove tid m) s i = (.ok c, s', i')) :
    s' = s ∧ i' = i ∧
      ∃ r ∈ s.tables.registrations, r.tournament = tid ∧ r.id = c.1 ∧ named c.2 = true := by
  simp only [checkMove, exec_bind_eq_ok, exec_found_eq_ok, exec_bound, exec_get, exec_refuseIf_eq_ok,
    exec_pure, Prod.mk.injEq, Except.ok.injEq] at h
  obtain ⟨rid, s₁, i₁, ⟨-, rfl, rfl⟩, -, s₂, i₂, ⟨-, rfl, rfl⟩, a, s₃, i₃, ⟨rfl, rfl, rfl⟩, r, s₄, i₄,
    ⟨hr, rfl, rfl⟩, l, s₅, i₅, ⟨-, rfl, rfl⟩, -, s₆, i₆, ⟨hl, rfl, rfl⟩, rfl, rfl, rfl⟩ := h
  obtain ⟨hmem, hkey⟩ := Store.mem_entrants_of_registrationIn? hr
  exact ⟨rfl, rfl, r, hmem, (Prod.mk.inj hkey).1, rfl, by simpa using hl⟩

/-- A regrouping that goes through checked every move, gave each moved registration of the
tournament its non-empty letter, and rebuilt the tournament's groups from the letters. -/
theorem exec_moveTeams_eq_ok {tid : String} {actor : Actor} {moves : List Move}
    {gs : List Group} (h : exec (moveTeams tid actor moves) s i = (.ok gs, s', i')) :
    ∃ changes : List (String × Option String),
      (∀ c ∈ changes, ∃ r ∈ s.tables.registrations,
        r.tournament = tid ∧ r.id = c.1 ∧ named c.2 = true) ∧
      s' = ((s.reletter changes).regroup tid).2 ∧ i' = i := by
  simp only [moveTeams, regroup, exec_bind_eq_ok, exec_authorize_eq_ok, exec_atomically_eq_ok,
    exec_modify, exec_bound, exec_modifyGet, Prod.mk.injEq] at h
  obtain ⟨-, s₁, i₁, ⟨-, rfl, rfl⟩, changes, s₂, i₂, hchecks, -, s₃, i₃, ⟨-, rfl, rfl⟩, -, s₄, i₄,
    ⟨-, rfl, rfl⟩, -, rfl, rfl⟩ := h
  obtain ⟨rfl, rfl, hvalid⟩ :=
    exec_mapM_eq_ok (fun m c s' i' hm => exec_checkMove_eq_ok hm) hchecks
  exact ⟨changes, hvalid, rfl, rfl⟩

end Through

end Txn

/-! ### Every request keeps the group table keyed -/

/-- The groups, the registrations and the group numbers handed out: the part of the store that
the pot and competition requests leave alone. -/
def Store.groupView (s : Store) : List Group × List Registration × Nat :=
  (s.tables.groups, s.tables.registrations, s.counters.groups)

theorem Store.groupView_upsertPot (s : Store) (tid rid : String) (k : Int) :
    (s.upsertPot tid rid k).2.groupView = s.groupView := by
  unfold Store.upsertPot
  split <;> rfl

/-- Saving a competition keeps the groups, registrations, group numbers and the pot side. -/
theorem Store.views_saveBracket (s : Store) (tid : String) (age : Option String) (data : Bracket) :
    ((s.saveBracket tid age data).groupView, (s.saveBracket tid age data).potView) =
      (s.groupView, s.potView) := by
  unfold Store.saveBracket
  split <;> rfl

namespace Txn

theorem keeps_assignPot (tid rid : String) (pot : Value) (actor : Actor) :
    Keeps Store.groupView (assignPot tid rid pot actor) :=
  moves_assignPot (fun s _ _ _ => s.groupView_upsertPot _ _ _) _ _ _ _

theorem keeps_clearPots (tid : String) (actor : Actor) :
    Keeps Store.groupView (clearPots tid actor) :=
  moves_clearPots (fun _ _ => rfl) _ _

section Requests

variable {s : Store} {i : Seed.Issued}

/-- Setting the answer aside changes nothing a request leaves. -/
theorem exec_discard (t : Txn α) (s : Store) (i : Seed.Issued) :
    (exec (discard t) s i).2 = (exec t s i).2 := by
  rw [discard_eq_bind, exec_bind]
  rcases exec t s i with ⟨r, s', i'⟩
  cases r <;> rfl

/-- A clean request that writes groups keeps the table keyed when each of its runs that goes
through does: a refusal leaves the groups as they were and the counter no lower. -/
theorem keyed_of_regrouping {t : Txn α} (hm : Moves Effect.regrouping t) (hc : Clean t)
    (h : s.GroupsKeyed) (hok : ∀ a s' i', exec t s i = (.ok a, s', i') → s'.GroupsKeyed) :
    (exec t s i).2.1.GroupsKeyed := by
  have hs := hm s i
  rcases hr : exec t s i with ⟨r, s', i'⟩
  rw [hr] at hs
  cases r with
  | ok a => exact hok a s' i' hr
  | error err =>
    have htables : s'.tables = s.tables := hc s i err s' i' hr
    exact h.of_sublist (htables ▸ List.Sublist.refl _) hs.2

theorem keyed_of_keeps {t : Txn α} (hm : Keeps Store.groupView t) (h : s.GroupsKeyed) :
    (exec t s i).2.1.GroupsKeyed := by
  have hv : (exec t s i).2.1.groupView = s.groupView := hm s i
  simp only [Store.groupView, Prod.mk.injEq] at hv
  exact h.congr hv.1 hv.2.2

/-- The competition requests keep the groups, registrations, group numbers and the pot side. -/
theorem keeps_competition {t : Txn α}
    (hm : ∀ {e : Effect}, (∀ s tid age data, e.allows s (s.saveBracket tid age data)) →
      Moves e t) :
    Keeps (fun s => (s.groupView, s.potView)) t :=
  hm fun s tid age data => s.views_saveBracket tid age data

end Requests

end Txn

/-- Every request to the draw, pot and competition services, refused or not, keeps a keyed group
table keyed. -/
theorem Request.keyed (r : Request) {s : Store} (h : s.GroupsKeyed) (i : Seed.Issued) :
    (Txn.exec r.txn s i).2.1.GroupsKeyed := by
  cases r with
  | executeDraw cfg tid actor groups seed =>
    rw [Request.txn, Txn.exec_discard]
    refine Txn.keyed_of_regrouping (Txn.moves_executeDraw _ _ _ _ _)
      (Txn.clean_atomically _) h fun a s' i' hok => ?_
    obtain ⟨-, G, -, -, -, -, -, -, hG, -, -, rfl⟩ := Txn.exec_executeDraw_eq_ok hok
    exact h.afterDraw (by simpa [Draw.roundRobin] using hG) _
  | moveTeams tid actor moves =>
    rw [Request.txn, Txn.exec_discard]
    refine Txn.keyed_of_regrouping (Txn.moves_moveTeams _ _ _)
      (Txn.clean_moveTeams _ _ _) h fun a s' i' hok => ?_
    obtain ⟨changes, -, rfl, -⟩ := Txn.exec_moveTeams_eq_ok hok
    exact (h.congr (Store.groups_reletter changes)
      (congrArg Counters.groups (Store.counters_reletter changes))).regroup
  | resetDraw tid actor =>
    refine Txn.keyed_of_regrouping (Txn.moves_resetDraw _ _)
      (Txn.clean_resetDraw _ _) h fun a s' i' hok => ?_
    obtain ⟨-, -, rfl⟩ := Txn.exec_resetDraw_eq_ok hok
    exact h.afterDraw (by simp) _
  | createGroup tid actor letter teams order =>
    rw [Request.txn, Txn.exec_discard]
    refine Txn.keyed_of_regrouping (Txn.moves_createGroup _ _ _ _ _)
      (Txn.clean_createGroup _ _ _ _ _) h fun a s' i' hok => ?_
    obtain ⟨hfree, -, o, hs', -⟩ := Txn.exec_createGroup_eq_ok hok
    rw [show s' = (s.addGroup tid letter teams o).2 from congrArg Prod.snd hs']
    exact h.addGroup (Store.key_not_mem_of_groupByLetter? hfree) _ _
  | updateGroup tid gid actor teams letter =>
    rw [Request.txn, Txn.exec_discard]
    refine Txn.keyed_of_regrouping (Txn.moves_updateGroup _ _ _ _ _)
      (Txn.clean_updateGroup _ _ _ _ _) h fun a s' i' hok => ?_
    obtain ⟨g, hg, hfree, rfl, -⟩ := Txn.exec_updateGroup_eq_ok hok
    obtain ⟨hmem, rfl⟩ := Store.mem_of_groupIn? hg
    refine h.editGroup hmem _ ?_
    -- the letter taken is the group's own unless a non-empty one was asked for
    cases letter with
    | none => exact .inl rfl
    | some l =>
      by_cases hn : named (some l) = true
      · rw [if_pos hn]
        rcases hfree l rfl with hl | ⟨-, hl⟩
        · exact .inl hl
        · exact .inr (Store.key_not_mem_of_groupByLetter? hl)
      · rw [if_neg hn]
        exact .inl rfl
  | generate cfg tid actor req =>
    rw [Request.txn, Txn.exec_discard]
    exact Txn.keyed_of_keeps
      ((Txn.keeps_competition fun hsave => Txn.moves_generate hsave _ _ _ _).comp Prod.fst) h
  | recordScore tid id actor res age =>
    rw [Request.txn, Txn.exec_discard]
    exact Txn.keyed_of_keeps
      ((Txn.keeps_competition fun hsave => Txn.moves_recordScore hsave _ _ _ _ _).comp Prod.fst) h
  | forceAdvance tid id team actor age =>
    rw [Request.txn, Txn.exec_discard]
    exact Txn.keyed_of_keeps
      ((Txn.keeps_competition fun hsave => Txn.moves_forceAdvance hsave _ _ _ _ _).comp Prod.fst) h
  | seedKnockout tid actor age =>
    rw [Request.txn, Txn.exec_discard]
    exact Txn.keyed_of_keeps
      ((Txn.keeps_competition fun hsave => Txn.moves_seedKnockout hsave _ _ _).comp Prod.fst) h
  | assignPot tid rid pot actor =>
    rw [Request.txn, Txn.exec_discard]
    exact Txn.keyed_of_keeps (Txn.keeps_assignPot _ _ _ _) h
  | clearPots tid actor =>
    rw [Request.txn, Txn.exec_discard]
    exact Txn.keyed_of_keeps (Txn.keeps_clearPots _ _) h
  | potDraw tid groups strict actor =>
    rw [Request.txn, Txn.exec_discard]
    refine Txn.keyed_of_regrouping (Txn.moves_potDraw _ _ _ _)
      (Txn.clean_atomically _) h fun a s' i' hok => ?_
    obtain ⟨-, G, -, -, -, -, hG, -, hG₂₆, -, -, dealt, hdeal, rfl⟩ := Txn.exec_potDraw_eq_ok hok
    have hlen := (Draw.distributePots_eq_ok (by rw [Draw.length_potShuffle]; rfl) (by omega)
      hdeal).1
    exact h.afterDraw (by omega) _

end TournamentDraw
