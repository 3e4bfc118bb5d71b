import TournamentDraw.Proofs.GroupLetters

/-!
# Rebuilding groups from letters

Moving teams between letters by hand gives every registration a move names the letter of the
last move naming it, then rebuilds the tournament's groups from the letters its approved teams
hold: one group per non-empty letter, in letter order and placed `1, 2, …`, listing the
approved teams that hold the letter in registration order. The tournament's old groups are
deleted and the new ones take ids never handed out before; the other tournaments' groups stay
(`moving_teams_regroups_by_letter`).

A registration can hold the empty letter, since a group made by hand may have it. The rebuilt
groups leave that letter out, so such a registration is approved and lettered but in no group
(`empty_letter_left_without_group`).
-/

namespace TournamentDraw

/-- The last of the moves that names a registration, if one does. -/
def Move.lastFor? (moves : List Move) (rid : String) : Option Move :=
  moves.reverse.find? (·.registration == some rid)

/-- The change a checked move makes: the registration it names and its letter. -/
def Move.change (m : Move) : String × Option String :=
  (m.registration.getD "", m.letter.getD none)

/-- A move that names a registration of the tournament and a non-empty letter. -/
def Move.Valid (s : Store) (tid : String) (m : Move) : Prop :=
  ∃ r ∈ s.tables.registrations, r.tournament = tid ∧ m.registration = some r.id ∧
    ∃ L, m.letter = some (some L) ∧ L ≠ ""

theorem Move.lastFor?_cons (m : Move) (moves : List Move) (rid : String) :
    Move.lastFor? (m :: moves) rid =
      (Move.lastFor? moves rid).or (if m.registration = some rid then some m else none) := by
  simp only [Move.lastFor?, List.reverse_cons, List.find?_append, List.find?_cons,
    List.find?_nil]
  cases h : (m.registration == some rid)
  · have hm : ¬ m.registration = some rid := by simpa using h
    simp [hm]
  · have hm : m.registration = some rid := by simpa using h
    simp [hm]

namespace Registration

/-- A registration after moves between letters: the letter of the last move naming it, if one
does. -/
def afterMoves (r : Registration) (moves : List Move) : Registration :=
  match Move.lastFor? moves r.id with
  | some m => { r with group := m.letter.getD none }
  | none => r

/-- Changing letters move by move leaves each registration with the letter of the last move
naming it: a later move overrides an earlier one. -/
theorem reletter_changes (r : Registration) {moves : List Move}
    (hnamed : ∀ m ∈ moves, ∃ rid, m.registration = some rid) :
    r.reletter (moves.map Move.change) = r.afterMoves moves := by
  induction moves generalizing r with
  | nil => rfl
  | cons m moves ih =>
    obtain ⟨rid, hrid⟩ := hnamed m List.mem_cons_self
    have ih' := fun r' => ih r' (fun m' hm' => hnamed m' (List.mem_cons_of_mem _ hm'))
    simp only [reletter, List.map_cons, List.foldl_cons] at ih' ⊢
    rw [ih']
    -- the first move sets the letter; a later move naming the registration overrides it
    have hid : r.id = (Move.change m).1 ↔ m.registration = some r.id := by
      simp [Move.change, hrid, eq_comm]
    unfold afterMoves
    rw [Move.lastFor?_cons]
    by_cases hm : m.registration = some r.id
    · rw [if_pos (hid.2 hm), if_pos hm]
      cases Move.lastFor? moves r.id <;> rfl
    · rw [if_neg (mt hid.1 hm), if_neg hm]
      cases Move.lastFor? moves r.id <;> rfl

end Registration

namespace Store

variable {s : Store} {tid : String}

/-- The approved registrations are read off the registrations alone. -/
theorem approvedOf_congr {s' : Store} (h : s'.tables.registrations = s.tables.registrations) :
    s'.approvedOf tid = s.approvedOf tid := by
  rw [approvedOf, approvedOf, registrationsOf, registrationsOf, h]

/-! ### The groups a regrouping writes -/

/-- Regrouping appends one new group per letter, placed in turn and made of the teams holding
the letter, each with an id numbered past the group counter. -/
theorem foldl_regroupStep_written (teams : String → List String) :
    ∀ (xs : List (String × Nat)) (acc : List Group × Store), ∃ news,
      (xs.foldl (regroupStep tid teams) acc).1 = acc.1 ++ news ∧
      (xs.foldl (regroupStep tid teams) acc).2.tables.groups = acc.2.tables.groups ++ news ∧
      news.map Group.shown = xs.map (fun x => (tid, x.1, Value.int (x.2 + 1), teams x.1)) ∧
      ∀ g ∈ news, ∃ k, acc.2.counters.groups < k ∧ g.id = s!"g{k}"
  | [], acc => ⟨[], by simp, by simp, rfl, by simp⟩
  | x :: xs, acc => by
    obtain ⟨news, h₁, h₂, hshown, hids⟩ :=
      foldl_regroupStep_written teams xs (regroupStep tid teams acc x)
    set g := (acc.2.addGroup tid x.1 (teams x.1) (.int (x.2 + 1))).1
    -- the group added first takes the next number; the later ones number past it
    have hcount : (regroupStep tid teams acc x).2.counters.groups = acc.2.counters.groups + 1 := by
      rw [regroupStep_snd, counters_addGroup]
    refine ⟨g :: news, ?_, ?_, ?_, ?_⟩
    · rw [List.foldl_cons, h₁]
      simp [regroupStep, g]
    · rw [List.foldl_cons, h₂, regroupStep_snd, groups_addGroup, List.append_assoc]
      rfl
    · rw [List.map_cons, hshown, List.map_cons]
      rfl
    · intro g' hg'
      rcases List.mem_cons.1 hg' with rfl | hg'
      · exact ⟨acc.2.counters.groups + 1, by omega, rfl⟩
      · obtain ⟨k, hk, hid⟩ := hids g' hg'
        exact ⟨k, by omega, hid⟩

/-- What a regrouping writes: the groups it answers replace the tournament's groups in the
table, one per held letter in order, placed `1, 2, …`, with the approved teams holding the
letter and ids never handed out before. -/
theorem regroup_written (s : Store) (tid : String) :
    (s.regroup tid).2.tables.groups = s.tables.groups.filter (·.tournament != tid) ++
        (s.regroup tid).1 ∧
      (s.regroup tid).1.map Group.shown = (s.heldLetters tid).zipIdx.map
        (fun x => (tid, x.1, Value.int (x.2 + 1), s.holding tid x.1)) ∧
      ∀ g ∈ (s.regroup tid).1, ∃ k, s.counters.groups < k ∧ g.id = s!"g{k}" := by
  obtain ⟨news, h₁, h₂, hshown, hids⟩ := @foldl_regroupStep_written tid (s.holding tid)
    (s.heldLetters tid).zipIdx ([], s.deleteGroups tid)
  rw [List.nil_append] at h₁
  have hfold : s.regroup tid = (s.heldLetters tid).zipIdx.foldl (regroupStep tid (s.holding tid))
      ([], s.deleteGroups tid) := regroup_eq
  rw [hfold, h₁]
  exact ⟨h₂, hshown, hids⟩

/-- The letters of the groups a regrouping writes are the held letters, in order. -/
theorem letters_regroup : (s.regroup tid).1.map (·.letter) = s.heldLetters tid := by
  have h := congrArg (List.map fun x : String × String × Value × List String => x.2.1)
    (regroup_written s tid).2.1
  simp only [List.map_map] at h
  rw [show (s.regroup tid).1.map (·.letter) = (s.regroup tid).1.map
    ((fun x : String × String × Value × List String => x.2.1) ∘ Group.shown) from rfl, h]
  exact List.zipIdx_map_fst 0 _

/-- The groups a regrouping writes belong to the tournament and are placed `1, 2, …`. -/
theorem placed_regroup : (s.regroup tid).1.map (fun g => (g.tournament, g.order)) =
    (List.range (s.regroup tid).1.length).map fun k : Nat => (tid, Value.int ((k : Int) + 1)) := by
  have h := congrArg (List.map fun x : String × String × Value × List String => (x.1, x.2.2.1))
    (regroup_written s tid).2.1
  simp only [List.map_map] at h
  have hlen : (s.regroup tid).1.length = (s.heldLetters tid).length := by
    simpa using congrArg List.length (regroup_written s tid).2.1
  rw [show (s.regroup tid).1.map (fun g => (g.tournament, g.order)) = (s.regroup tid).1.map
    ((fun x : String × String × Value × List String => (x.1, x.2.2.1)) ∘ Group.shown) from rfl,
    h, hlen]
  have hsnd := List.zipIdx_map_snd 0 (s.heldLetters tid)
  rw [← List.range_eq_range'] at hsnd
  rw [← hsnd, List.map_map]
  rfl

theorem tournament_regroup {g : Group} (hg : g ∈ (s.regroup tid).1) : g.tournament = tid := by
  have hmem := List.mem_map_of_mem (f := fun g : Group => (g.tournament, g.order)) hg
  rw [placed_regroup] at hmem
  obtain ⟨k, -, hk⟩ := List.mem_map.1 hmem
  exact (congrArg Prod.fst hk).symm

/-- A group a regrouping writes lists the approved teams holding its letter, in registration
order. -/
theorem teams_regroup {g : Group} (hg : g ∈ (s.regroup tid).1) :
    g.teams = ((s.approvedOf tid).filter (·.group == some g.letter)).map (·.id) := by
  have hmem := List.mem_map_of_mem (f := Group.shown) hg
  rw [(regroup_written s tid).2.1] at hmem
  obtain ⟨x, -, hx⟩ := List.mem_map.1 hmem
  simp only [Group.shown, Prod.mk.injEq] at hx
  rw [← hx.2.2.2, ← hx.2.1]
  rfl

/-- After a regrouping the tournament's groups, in display order, are the groups it wrote. -/
theorem groupsOf_regroup : (s.regroup tid).2.groupsOf tid = (s.regroup tid).1 := by
  have hfilter : (s.regroup tid).2.tables.groups.filter (·.tournament == tid) =
      (s.regroup tid).1 := by
    rw [(regroup_written s tid).1, List.filter_append, List.filter_filter,
      List.filter_eq_nil_iff.2 (by intro g _; simp),
      List.filter_eq_self.2 (fun g hg => by simp [tournament_regroup hg]), List.nil_append]
  have horder : (s.regroup tid).1.map (·.order) =
      (List.range (s.regroup tid).1.length).map fun k : Nat => Value.int ((k : Int) + 1) := by
    have h := congrArg (List.map Prod.snd) (@placed_regroup s tid)
    simp only [List.map_map] at h
    exact h
  rw [groupsOf, hfilter, List.mergeSort_of_pairwise (Group.pairwise_before horder)]

/-- The held letters are in strictly increasing order. -/
theorem heldLetters_sorted : (s.heldLetters tid).Pairwise (· < ·) := by
  have hle : (s.heldLetters tid).Pairwise (· ≤ ·) := by
    have h := @List.pairwise_mergeSort _ (fun a b : String => decide (a ≤ b))
      (fun a b c hab hbc => decide_eq_true (String.le_trans (of_decide_eq_true hab)
        (of_decide_eq_true hbc)))
      (fun a b => by rcases String.le_total a b with h | h <;> simp [h])
      (firstOccurrences ((s.approvedOf tid).filterMap fun r => if named r.group then r.group
        else none))
    rw [heldLetters]
    simpa only [decide_eq_true_eq] using h
  exact (hle.and nodup_heldLetters).imp fun h => lt_of_le_of_ne h.1 h.2

/-- A letter is held exactly when an approved team of the tournament holds it and it is not
empty. -/
theorem mem_heldLetters_iff {L : String} :
    L ∈ s.heldLetters tid ↔ ∃ r ∈ s.approvedOf tid, r.group = some L ∧ L ≠ "" := by
  rw [mem_heldLetters]
  constructor
  · rintro ⟨r, hr, hn, hL⟩
    rw [hL] at hn
    exact ⟨r, hr, hL, by simpa [named] using hn⟩
  · rintro ⟨r, hr, hL, hne⟩
    exact ⟨r, hr, by simpa [hL, named] using hne, hL⟩

end Store

/-! ### Moving teams -/

namespace Txn

variable {s s' : Store} {i i' : Seed.Issued} {tid : String}

/-- The inverse of running checks on a list: when every check on one item passes without
changing anything and answers a function of the item, the checks of the list pass and answer
the list mapped. -/
theorem exec_mapM_eq_ok_map {β γ : Type} {f : β → Txn γ} {g : β → γ} {P : β → Prop}
    {s₀ : Store} {i₀ : Seed.Issued}
    (hf : ∀ x c s' i', exec (f x) s₀ i₀ = (.ok c, s', i') → s' = s₀ ∧ i' = i₀ ∧ c = g x ∧ P x) :
    ∀ {xs : List β} {cs : List γ} {s' : Store} {i' : Seed.Issued},
      exec (xs.mapM f) s₀ i₀ = (.ok cs, s', i') → s' = s₀ ∧ i' = i₀ ∧ cs = xs.map g ∧ ∀ x ∈ xs, P x
  | [], cs, s', i', h => by
    simp only [List.mapM_nil, exec_pure, Prod.mk.injEq, Except.ok.injEq] at h
    obtain ⟨rfl, rfl, rfl⟩ := h
    exact ⟨rfl, rfl, rfl, by simp⟩
  | x :: xs, cs, s', i', h => by
    simp only [List.mapM_cons, exec_bind_eq_ok, exec_pure, Prod.mk.injEq, Except.ok.injEq] at h
    obtain ⟨c, s₁, i₁, h₁, cs', s₂, i₂, h₂, rfl, rfl, rfl⟩ := h
    obtain ⟨rfl, rfl, rfl, hx⟩ := hf x c s₁ i₁ h₁
    obtain ⟨rfl, rfl, rfl, hxs⟩ := exec_mapM_eq_ok_map hf h₂
    exact ⟨rfl, rfl, rfl, List.forall_mem_cons.2 ⟨hx, hxs⟩⟩

/-- A checked move answers its change, and names a registration of the tournament and a
non-empty letter. -/
theorem exec_checkMove_change {m : Move} {c : String × Option String}
    (h : exec (checkMove tid m) s i = (.ok c, s', i')) :
    s' = s ∧ i' = i ∧ c = m.change ∧ m.Valid s tid := by
  simp only [checkMove, exec_bind_eq_ok, exec_found_eq_ok, exec_bound, exec_get, exec_refuseIf_eq_ok,
    exec_pure, Prod.mk.injEq, Except.ok.injEq] at h
  obtain ⟨rid, s₁, i₁, ⟨hrid, rfl, rfl⟩, -, s₂, i₂, ⟨-, rfl, rfl⟩, a, s₃, i₃, ⟨rfl, rfl, rfl⟩, r, s₄,
    i₄, ⟨hr, rfl, rfl⟩, l, s₅, i₅, ⟨hl, rfl, rfl⟩, -, s₆, i₆, ⟨hn, rfl, rfl⟩, rfl, rfl, rfl⟩ := h
  obtain ⟨hmem, hkey⟩ := Store.mem_entrants_of_registrationIn? hr
  obtain ⟨ht, hid⟩ := Prod.mk.inj hkey
  obtain ⟨L, rfl, hL⟩ : ∃ L, l = some L ∧ L ≠ "" := by
    cases l with
    | none => cases hn
    | some L => exact ⟨L, rfl, by simpa [named] using hn⟩
  refine ⟨rfl, rfl, by simp [Move.change, hrid, hl, hid], r, hmem, ht, by rw [hrid, hid], L, hl, hL⟩

/-- A regrouping that goes through checked every move, changed the letters move by move and
rebuilt the tournament's groups from the letters, answering the groups it wrote. -/
theorem exec_moveTeams_regroup {actor : Actor} {moves : List Move} {gs : List Group}
    (h : exec (moveTeams tid actor moves) s i = (.ok gs, s', i')) :
    (∀ m ∈ moves, m.Valid s tid) ∧
      gs = ((s.reletter (moves.map Move.change)).regroup tid).1 ∧
      s' = ((s.reletter (moves.map Move.change)).regroup tid).2 := by
  simp only [moveTeams, regroup, exec_bind_eq_ok, exec_authorize_eq_ok, exec_atomically_eq_ok,
    exec_modify, exec_bound, exec_modifyGet, Prod.mk.injEq, Except.ok.injEq] at h
  obtain ⟨-, s₁, i₁, ⟨-, rfl, rfl⟩, changes, s₂, i₂, hchecks, -, s₃, i₃, ⟨-, rfl, rfl⟩, -, s₄, i₄,
    ⟨-, rfl, rfl⟩, rfl, rfl, rfl⟩ := h
  obtain ⟨rfl, rfl, rfl, hvalid⟩ :=
    exec_mapM_eq_ok_map (fun m c s' i' hm => exec_checkMove_change hm) hchecks
  exact ⟨hvalid, rfl, rfl⟩

/-- Moving teams goes through when the tournament lets the actor in, every move passes its
check without a change, and the letters can be written. -/
theorem exec_moveTeams_of {actor : Actor} {moves : List Move} {t : Tournament}
    {changes : List (String × Option String)}
    (ht : (exec (authorize tid actor .updateBracket) s i).1 = .ok t)
    (hchecks : exec (moves.mapM (checkMove tid)) s i = (.ok changes, s, i))
    (hw : Cell.writable ((changes.mergeSort fun a b => decide (a.1 ≤ b.1)).filterMap (·.2)) =
      .ok ()) :
    exec (moveTeams tid actor moves) s i =
      (.ok ((s.reletter changes).regroup tid).1, ((s.reletter changes).regroup tid).2, i) := by
  have hauth : exec (authorize tid actor .updateBracket) s i = (.ok t, s, i) :=
    exec_authorize_eq_ok.2 ⟨ht, rfl, rfl⟩
  simp only [moveTeams, regroup, exec_bind, hauth, hchecks, exec_atomically, exec_modify,
    exec_bound, hw, exec_modifyGet]
  rfl

end Txn

/-- What moving teams between letters leaves in a store `s'` from `s`, for the moves `moves`
on a tournament and the groups `gs` answered. -/
structure Store.Regrouped (s s' : Store) (tid : String) (moves : List Move) (gs : List Group) :
    Prop where
  /-- Every move names a registration of the tournament and a non-empty letter. -/
  checked : ∀ m ∈ moves, m.Valid s tid
  /-- A registration a move names holds the letter of the last move naming it; every other
  registration is as it was. -/
  letters : s'.tables.registrations = s.tables.registrations.map (·.afterMoves moves)
  /-- The tournament's groups, in display order, are the groups answered. -/
  groups : s'.groupsOf tid = gs
  /-- They belong to the tournament and are placed `1, 2, …`. -/
  placed : gs.map (fun g => (g.tournament, g.order)) =
    (List.range gs.length).map fun k : Nat => (tid, Value.int ((k : Int) + 1))
  /-- Their letters increase strictly. -/
  sorted : (gs.map (·.letter)).Pairwise (· < ·)
  /-- Their letters are the non-empty letters the tournament's approved registrations hold. -/
  held : ∀ L, L ∈ gs.map (·.letter) ↔ ∃ r ∈ s'.approvedOf tid, r.group = some L ∧ L ≠ ""
  /-- A group lists the approved registrations holding its letter, in registration order. -/
  teams : ∀ g ∈ gs, g.teams = ((s'.approvedOf tid).filter (·.group == some g.letter)).map (·.id)
  /-- The tournament's old groups are gone and every other tournament's stay. -/
  table : s'.tables.groups = s.tables.groups.filter (·.tournament != tid) ++ gs
  /-- The new groups take ids never handed out before. -/
  fresh : ∀ g ∈ gs, ∃ k, s.counters.groups < k ∧ g.id = s!"g{k}"

/-- **Moving teams rebuilds the groups from the letters.** When moving teams between letters
goes through, every move named a registration of the tournament and a non-empty letter; each
registration a move names holds the letter of the last move naming it and no other letter
changed; and the tournament's groups are rebuilt: one group per non-empty letter its approved
registrations hold, in increasing letter order and placed `1, 2, …`, each listing the approved
registrations holding its letter in registration order. The tournament's old groups are
deleted, the new ones take ids never handed out before, and the groups of every other
tournament stay. -/
theorem moving_teams_regroups_by_letter {s s' : Store} {i i' : Seed.Issued} {tid : String}
    {actor : Actor} {moves : List Move} {gs : List Group}
    (h : Txn.exec (Txn.moveTeams tid actor moves) s i = (.ok gs, s', i')) :
    s.Regrouped s' tid moves gs := by
  obtain ⟨hvalid, rfl, rfl⟩ := Txn.exec_moveTeams_regroup h
  set s₁ := s.reletter (moves.map Move.change)
  have hnamed : ∀ m ∈ moves, ∃ rid, m.registration = some rid := fun m hm => by
    obtain ⟨r, -, -, hr, -⟩ := hvalid m hm
    exact ⟨r.id, hr⟩
  -- the regrouping reads the letters the moves left and changes no registration
  have hregs : (s₁.regroup tid).2.tables.registrations = s₁.tables.registrations :=
    Store.registrations_regroup
  have happroved : (s₁.regroup tid).2.approvedOf tid = s₁.approvedOf tid :=
    Store.approvedOf_congr hregs
  obtain ⟨htable, -, hfresh⟩ := Store.regroup_written s₁ tid
  refine ⟨hvalid, ?letters, Store.groupsOf_regroup, Store.placed_regroup, ?sorted, ?held,
    ?teams, ?table, ?fresh⟩
  case letters =>
    rw [hregs, Store.registrations_reletter]
    exact List.map_congr_left fun r _ => r.reletter_changes hnamed
  case sorted =>
    rw [Store.letters_regroup]
    exact Store.heldLetters_sorted
  case held =>
    intro L
    rw [Store.letters_regroup, happroved]
    exact Store.mem_heldLetters_iff
  case teams =>
    intro g hg
    rw [happroved]
    exact Store.teams_regroup hg
  case table =>
    rw [htable, Store.groups_reletter]
  case fresh =>
    intro g hg
    obtain ⟨k, hk, hid⟩ := hfresh g hg
    exact ⟨k, by rwa [Store.counters_reletter] at hk, hid⟩

/-- Moving the first team of the two-team cup to group `B` goes through and regroups it. -/
theorem moving_teams_regroups_two_teams :
    ∃ gs s' i',
      Txn.exec (Txn.moveTeams "t1" {} [{ registration := some "r1", letter := some (some "B") }])
        cupStore {} = (.ok gs, s', i') ∧
      cupStore.Regrouped s' "t1" [{ registration := some "r1", letter := some (some "B") }] gs := by
  have hw : Cell.writable (([("r1", some "B")].mergeSort fun a b => decide (a.1 ≤ b.1)).filterMap
      (·.2)) = .ok () := by
    rw [List.mergeSort_of_pairwise (List.pairwise_singleton _ _)]
    decide
  have h := @Txn.exec_moveTeams_of cupStore {} "t1" {}
    [{ registration := some "r1", letter := some (some "B") }] { id := "t1", name := "Cup" }
    [("r1", some "B")] rfl rfl hw
  exact ⟨_, _, _, h, moving_teams_regroups_by_letter h⟩

/-- The two-team cup with its first team holding the empty letter, as a group made by hand
with that letter leaves it. -/
def blankLetterCup : Store :=
  let regs := cupStore.tables.registrations.map fun r =>
    if r.id = "r1" then { r with group := some "" } else r
  { cupStore with tables := { cupStore.tables with registrations := regs } }

/-- An approved team holding the empty letter is left in no group: moving the other team to
group `A` goes through, and no group of the tournament has the empty letter. -/
theorem empty_letter_left_without_group :
    ∃ gs s' i',
      Txn.exec (Txn.moveTeams "t1" {} [{ registration := some "r2", letter := some (some "A") }])
        blankLetterCup {} = (.ok gs, s', i') ∧
      (∃ r ∈ s'.approvedOf "t1", r.group = some "") ∧ ∀ g ∈ s'.groupsOf "t1", g.letter ≠ "" := by
  have hw : Cell.writable (([("r2", some "A")].mergeSort fun a b => decide (a.1 ≤ b.1)).filterMap
      (·.2)) = .ok () := by
    rw [List.mergeSort_of_pairwise (List.pairwise_singleton _ _)]
    decide
  have h := @Txn.exec_moveTeams_of blankLetterCup {} "t1" {}
    [{ registration := some "r2", letter := some (some "A") }] { id := "t1", name := "Cup" }
    [("r2", some "A")] rfl rfl hw
  refine ⟨_, _, _, h, ?_, ?_⟩
  · -- the team holding the empty letter is still approved and keeps its letter
    have hheld : ∃ r ∈ (blankLetterCup.reletter [("r2", some "A")]).tables.registrations,
        r.tournament = "t1" ∧ r.status = "APPROVED" ∧ r.group = some "" := by
      decide
    obtain ⟨r, hr, ht, hs, hg⟩ := hheld
    exact ⟨r, Store.mem_approvedOf.2 ⟨by rwa [Store.registrations_regroup], ht, hs⟩, hg⟩
  · intro g hg
    rw [Store.groupsOf_regroup] at hg
    obtain ⟨r, -, -, hne⟩ := Store.mem_heldLetters_iff.1
      (Store.letters_regroup ▸ List.mem_map_of_mem (f := Group.letter) hg)
    exact hne

end TournamentDraw
