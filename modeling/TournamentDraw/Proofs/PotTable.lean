import TournamentDraw.Proofs.Frame
import TournamentDraw.Proofs.Permission
import TournamentDraw.Proofs.Drawn
import TournamentDraw.Proofs.GroupTable
import TournamentDraw.Proofs.Layout

/-!
# The pot table stays one row per team, numbered 1 to 4

A tournament's pots are rows of the pot table: a registration, its tournament, a pot number
and the time the row was first written. Whatever the pot service is asked, refused or not,
with registrations changing state in between, the table stays sound (`Store.PotsSound`): one
row per registration and tournament, every pot number from 1 to 4, every row for a
registration of its tournament. A step writes a row only for a registration that is approved
when it is written, and a row moved to another pot keeps its id and time
(`Store.PotsWritten`). Reading the pots then lists every row of the tournament once, under its
pot and in order of time, and checking the pots counts them all.
-/

namespace TournamentDraw

/-- The tournament and registration a pot row is for. -/
def PotEntry.key (p : PotEntry) : String × String :=
  (p.tournament, p.registration)

namespace Store

/-- Each registration's tournament and id. -/
def entrants (s : Store) : List (String × String) :=
  s.tables.registrations.map fun r => (r.tournament, r.id)

/-- Whether the registration of a tournament is approved in a store. -/
def ApprovedIn (s : Store) (key : String × String) : Prop :=
  ∃ r ∈ s.tables.registrations, (r.tournament, r.id) = key ∧ r.status = "APPROVED"

/-- A sound pot table: one row per registration and tournament, rows numbered apart and at
most the pot counter, every pot number from 1 to 4, and every row for a registration of its
tournament. -/
structure PotsSound (s : Store) : Prop where
  unique : (s.tables.pots.map PotEntry.key).Nodup
  ids : (s.tables.pots.map (·.id)).Nodup
  numbered : ∀ p ∈ s.tables.pots, ∃ k ≤ s.counters.pots, p.id = s!"p{k}"
  inRange : ∀ p ∈ s.tables.pots, 1 ≤ p.pot ∧ p.pot ≤ 4
  entered : ∀ p ∈ s.tables.pots, p.key ∈ s.entrants

/-- What a step may write to the pot table: each row after it was there before, or was
written for a registration approved before the step and keeps the id and time of the row that
registration had. -/
def PotsWritten (s s' : Store) : Prop :=
  ∀ p' ∈ s'.tables.pots, p' ∈ s.tables.pots ∨
    (s.ApprovedIn p'.key ∧ ∀ p ∈ s.tables.pots, p.key = p'.key → p.id = p'.id ∧ p.stamp = p'.stamp)

/-- What assigning pots does: the registrations stay, every row stays with its id and time
(its pot may move), and what it writes it writes as `PotsWritten` says. -/
structure PotsAssigned (s s' : Store) : Prop where
  registrations : s'.tables.registrations = s.tables.registrations
  kept : ∀ p ∈ s.tables.pots,
    ∃ p' ∈ s'.tables.pots, p'.key = p.key ∧ p'.id = p.id ∧ p'.stamp = p.stamp
  written : PotsWritten s s'

variable {s s' s'' : Store}

theorem potsSound_of_nil (h : s.tables.pots = []) : s.PotsSound where
  unique := by simp [h]
  ids := by simp [h]
  numbered := by simp [h]
  inRange := by simp [h]
  entered := by simp [h]

theorem PotsAssigned.refl (s : Store) : PotsAssigned s s :=
  ⟨rfl, fun p hp => ⟨p, hp, rfl, rfl, rfl⟩, fun _ hp => .inl hp⟩

theorem PotsAssigned.trans (h₁ : PotsAssigned s s') (h₂ : PotsAssigned s' s'') :
    PotsAssigned s s'' := by
  refine ⟨h₂.registrations.trans h₁.registrations, ?_, ?_⟩
  · intro p hp
    obtain ⟨p₁, hp₁, hk₁, hi₁, hs₁⟩ := h₁.kept p hp
    obtain ⟨p₂, hp₂, hk₂, hi₂, hs₂⟩ := h₂.kept p₁ hp₁
    exact ⟨p₂, hp₂, hk₂.trans hk₁, hi₂.trans hi₁, hs₂.trans hs₁⟩
  · intro p₂ hp₂
    rcases h₂.written p₂ hp₂ with hp₁ | ⟨⟨r, hr, hkey, happ⟩, hsame⟩
    · exact h₁.written p₂ hp₁
    · -- written by the second part: approved before it, when the registrations were these
      refine .inr ⟨⟨r, h₁.registrations ▸ hr, hkey, happ⟩, ?_⟩
      intro p hp hk
      obtain ⟨p₁, hp₁, hk₁, hi₁, hs₁⟩ := h₁.kept p hp
      obtain ⟨hi, hst⟩ := hsame p₁ hp₁ (hk₁.trans hk)
      exact ⟨hi₁.symm.trans hi, hs₁.symm.trans hst⟩

/-- A step that only drops rows, with the pot counter and the entrants kept, keeps the table
sound and writes nothing. -/
theorem PotsSound.of_sublist (hs : s.PotsSound) (hsub : s'.tables.pots.Sublist s.tables.pots)
    (hc : s'.counters.pots = s.counters.pots) (he : s'.entrants = s.entrants) :
    s'.PotsSound ∧ PotsWritten s s' := by
  refine ⟨⟨(hsub.map _).nodup hs.unique, (hsub.map _).nodup hs.ids, ?_, ?_, ?_⟩, ?_⟩
  · intro p hp
    rw [hc]
    exact hs.numbered p (hsub.subset hp)
  · exact fun p hp => hs.inRange p (hsub.subset hp)
  · intro p hp
    rw [he]
    exact hs.entered p (hsub.subset hp)
  · exact fun p hp => .inl (hsub.subset hp)

/-! ### Putting a registration into a pot -/

theorem potId_inj {a b : Nat} (h : s!"p{a}" = s!"p{b}") : a = b :=
  repr_inj ((String.append_right_inj _).1 h)

theorem key_of_potEntry? {tid rid : String} {e : PotEntry} (h : s.potEntry? tid rid = some e) :
    e ∈ s.tables.pots ∧ e.key = (tid, rid) := by
  have he := List.find?_some h
  simp only [Bool.and_eq_true, beq_iff_eq] at he
  exact ⟨List.mem_of_find?_eq_some h, by simp [PotEntry.key, he.1, he.2]⟩

theorem not_mem_of_potEntry? {tid rid : String} (h : s.potEntry? tid rid = none) :
    (tid, rid) ∉ s.tables.pots.map PotEntry.key := by
  intro hmem
  obtain ⟨p, hp, hk⟩ := List.mem_map.1 hmem
  have := List.find?_eq_none.1 h p hp
  simp only [PotEntry.key, Prod.mk.injEq] at hk
  simp [hk.1, hk.2] at this

/-- Moving the row of a registration that has one: the rows with its id take the new pot. -/
theorem upsertPot_of_some {tid rid : String} {k : Int} {e : PotEntry}
    (h : s.potEntry? tid rid = some e) :
    (s.upsertPot tid rid k).2 = { s with tables := { s.tables with
      pots := s.tables.pots.map fun p => if p.id = e.id then { e with pot := k } else p } } := by
  simp [upsertPot, h]

/-- A new row, numbered after the rows before and stamped with the next time. -/
theorem upsertPot_of_none {tid rid : String} {k : Int} (h : s.potEntry? tid rid = none) :
    (s.upsertPot tid rid k).2.tables = { s.tables with pots := s.tables.pots ++
        [{ id := s!"p{s.counters.pots + 1}", tournament := tid, registration := rid, pot := k,
           stamp := s.counters.clock + 1 }] } ∧
      (s.upsertPot tid rid k).2.counters.pots = s.counters.pots + 1 := by
  simp [upsertPot, h, tick]

section Upsert

variable {tid rid : String} {k : Int}

/-- Putting a registration of the tournament into a pot from 1 to 4 keeps the table sound. -/
theorem PotsSound.upsertPot (hs : s.PotsSound) (hreg : (tid, rid) ∈ s.entrants)
    (hk : 1 ≤ k ∧ k ≤ 4) : (s.upsertPot tid rid k).2.PotsSound := by
  cases he : s.potEntry? tid rid with
  | some e =>
    obtain ⟨hmem, hkey⟩ := key_of_potEntry? he
    rw [upsertPot_of_some he]
    -- only `e` has `e`'s id, so the move changes that row alone and keeps its key and id
    have hsame : ∀ p ∈ s.tables.pots, p.id = e.id → p = e :=
      fun p hp hid => List.inj_on_of_nodup_map hs.ids hp hmem hid
    refine ⟨?_, ?_, ?_, ?_, ?_⟩
    · rw [List.map_map]
      convert hs.unique using 1
      apply List.map_congr_left
      intro p hp
      by_cases hid : p.id = e.id
      · simp [hsame p hp hid, PotEntry.key]
      · simp [hid]
    · rw [List.map_map]
      convert hs.ids using 1
      apply List.map_congr_left
      intro p hp
      by_cases hid : p.id = e.id <;> simp [hid]
    · simp only [List.mem_map]
      rintro _ ⟨p, hp, rfl⟩
      by_cases hid : p.id = e.id
      · simp only [hid, if_true]
        exact hs.numbered e hmem
      · simp only [hid, if_false]
        exact hs.numbered p hp
    · simp only [List.mem_map]
      rintro _ ⟨p, hp, rfl⟩
      by_cases hid : p.id = e.id
      · simpa [hid] using hk
      · simpa [hid] using hs.inRange p hp
    · simp only [List.mem_map]
      rintro _ ⟨p, hp, rfl⟩
      by_cases hid : p.id = e.id
      · simpa [hid, PotEntry.key, entrants] using hs.entered e hmem
      · simpa [hid, entrants] using hs.entered p hp
  | none =>
    obtain ⟨htab, hcount⟩ := upsertPot_of_none (k := k) he
    have hfresh := not_mem_of_potEntry? he
    refine ⟨?_, ?_, ?_, ?_, ?_⟩
    · rw [htab]
      simpa [List.nodup_append, PotEntry.key] using ⟨hs.unique, fun p hp => by
        intro h₁ h₂
        exact hfresh (List.mem_map.2 ⟨p, hp, by simp [PotEntry.key, h₁, h₂]⟩)⟩
    · -- the new id is numbered past every id handed out before
      have hnew : s!"p{s.counters.pots + 1}" ∉ s.tables.pots.map (·.id) := by
        intro hq
        obtain ⟨p, hp, hpid⟩ := List.mem_map.1 hq
        obtain ⟨j, hj, hid⟩ := hs.numbered p hp
        have := potId_inj (hid.symm.trans hpid)
        omega
      rw [htab, List.map_append, List.nodup_append_comm]
      exact List.nodup_cons.2 ⟨hnew, hs.ids⟩
    · rw [htab, hcount]
      simp only [List.mem_append, List.mem_singleton]
      rintro p (hp | rfl)
      · obtain ⟨j, hj, hid⟩ := hs.numbered p hp
        exact ⟨j, by omega, hid⟩
      · exact ⟨_, le_rfl, rfl⟩
    · rw [htab]
      simp only [List.mem_append, List.mem_singleton]
      rintro p (hp | rfl)
      · exact hs.inRange p hp
      · exact hk
    · rw [htab]
      simp only [List.mem_append, List.mem_singleton]
      rintro p (hp | rfl)
      · simpa [entrants, htab] using hs.entered p hp
      · simpa [entrants, htab, PotEntry.key] using hreg

/-- Putting an approved registration into a pot keeps every row with its id and time, and
writes only its own row. -/
theorem potsAssigned_upsertPot (hs : s.PotsSound) (happ : s.ApprovedIn (tid, rid)) :
    PotsAssigned s (s.upsertPot tid rid k).2 := by
  cases he : s.potEntry? tid rid with
  | some e =>
    obtain ⟨hmem, hkey⟩ := key_of_potEntry? he
    rw [upsertPot_of_some he]
    have hsame : ∀ p ∈ s.tables.pots, p.id = e.id → p = e :=
      fun p hp hid => List.inj_on_of_nodup_map hs.ids hp hmem hid
    refine ⟨rfl, ?_, ?_⟩
    · intro p hp
      refine ⟨_, List.mem_map_of_mem hp, ?_⟩
      by_cases hid : p.id = e.id
      · simp [hsame p hp hid, PotEntry.key]
      · simp [hid]
    · simp only [PotsWritten, List.mem_map]
      rintro _ ⟨p, hp, rfl⟩
      by_cases hid : p.id = e.id
      · -- the moved row: its key is the registration's, and no other row has that key
        simp only [hid, if_true]
        refine .inr ⟨show s.ApprovedIn e.key from hkey ▸ happ, ?_⟩
        intro q hq hqk
        have : q = e := List.inj_on_of_nodup_map hs.unique hq hmem (by simpa [PotEntry.key] using hqk)
        simp [this]
      · simp only [hid, if_false]
        exact .inl hp
  | none =>
    obtain ⟨htab, -⟩ := upsertPot_of_none (k := k) he
    have hfresh := not_mem_of_potEntry? he
    refine ⟨by rw [htab], ?_, ?_⟩
    · intro p hp
      exact ⟨p, by rw [htab]; exact List.mem_append_left _ hp, rfl, rfl, rfl⟩
    · intro p' hp'
      rw [htab] at hp'
      simp only [List.mem_append, List.mem_singleton] at hp'
      rcases hp' with hp' | rfl
      · exact .inl hp'
      · refine .inr ⟨happ, fun q hq hqk => absurd (List.mem_map.2 ⟨q, hq, hqk⟩) hfresh⟩

end Upsert

/-- A registration found in a tournament is one of its entrants. -/
theorem mem_entrants_of_registrationIn? {tid rid : String} {r : Registration}
    (h : s.registrationIn? tid rid = some r) :
    r ∈ s.tables.registrations ∧ (r.tournament, r.id) = (tid, rid) := by
  have hr := List.find?_some h
  simp only [Bool.and_eq_true, beq_iff_eq] at hr
  exact ⟨List.mem_of_find?_eq_some h, by rw [hr.1, hr.2]⟩

end Store

/-- The pot rows, the pot numbers handed out, and the entrants: the part of the store that the
pot draw leaves alone. -/
def Store.potView (s : Store) : List PotEntry × Nat × List (String × String) :=
  (s.tables.pots, s.counters.pots, s.entrants)

namespace Txn

/-- The pot draw writes groups, group letters and the tournament's flag, and leaves the pot
rows, the pot numbers handed out and the entrants alone. -/
theorem keeps_potDraw (tid : String) (groups : Value) (strict : Bool) (actor : Actor) :
    Keeps Store.potView (potDraw tid groups strict actor) := by
  have hwrite : ∀ (acc : List Group × Store) (x : List String × Nat),
      (Store.writeGroup tid acc x).2.potView = acc.2.potView := by
    intro acc x
    simp [Store.writeGroup_eq, Store.potView, Store.entrants, Store.addGroup, Store.insertGroup,
      Store.groupNumber, Store.tick, List.map_map, Function.comp_def]
  unfold potDraw
  -- a refused draw puts back the tables and keeps the counters it left, pot numbers included
  refine moves_atomically ?_ fun s s' h => ?_
  rotate_left
  · simp only [Effect.keeping_allows, Store.potView, Prod.mk.injEq] at h ⊢
    exact ⟨rfl, h.2.1, rfl⟩
  refine (moves_authorize _ _ _).bind fun t => (moves_refuseIf _ _).bind fun _ =>
    moves_get.bind fun s₁ => (moves_refuseIf _ _).bind fun _ =>
    (moves_operand _).bind fun _ => (moves_refuseIf _ _).bind fun _ =>
    (moves_operand _).bind fun _ => (moves_refuseIf _ _).bind fun _ =>
    (moves_refuseIf _ _).bind fun _ => moves_get.bind fun s₂ =>
    (moves_refuseIf _ _).bind fun _ => (moves_count _).bind fun n =>
    (moves_ofExcept _).bind fun dealt => (moves_modify ?_).bind fun _ =>
    (moves_writeGroups hwrite _).bind fun saved => (moves_modify ?_).bind fun _ => moves_pure _
  · intro s
    simp [Store.potView, Store.entrants, Store.deleteGroups, Store.clearGroupLetters,
      List.map_map, Function.comp_def, apply_ite]
  · intro s
    rfl

variable {s s' : Store} {i i' : Seed.Issued}

/-- A pot placement that goes through found an approved registration of the tournament and a
pot from 1 to 4 equal to the one asked for, and put the registration there. -/
theorem exec_putInPot_eq_ok {tid rid : String} {pot : Value} {e : PotEntry}
    (h : exec (putInPot tid rid pot) s i = (.ok e, s', i')) :
    ∃ r k, s.registrationIn? tid rid = some r ∧ r.status = "APPROVED" ∧
      [1, 2, 3, 4].find? (fun (k : Int) => pot.eqv (.int k)) = some k ∧
      s.upsertPot tid rid k = (e, s') ∧ i' = i := by
  simp only [putInPot, bound, exec_bind, exec_cell] at h
  cases hw : Cell.writable [rid] with
  | error f => simp [hw] at h
  | ok u =>
    simp only [hw, exec_get] at h
    cases hr : s.registrationIn? tid rid with
    | none => simp [hr] at h
    | some r =>
      simp only [hr] at h
      refine ⟨r, ?_⟩
      by_cases hst : r.status = "APPROVED"
      · simp only [hst, bne_self_eq_false, Bool.false_eq_true, if_false] at h
        cases hk : [1, 2, 3, 4].find? (fun (k : Int) => pot.eqv (.int k)) with
        | none => simp [hk] at h
        | some k =>
          simp only [hk, exec_bind, exec_get, exec_set, exec_pure, Prod.mk.injEq] at h
          obtain ⟨⟨⟩, rfl, rfl⟩ := h
          exact ⟨k, rfl, hst, rfl, rfl, rfl⟩
      · have hne : (r.status != "APPROVED") = true := by simpa using hst
        simp only [hne, if_true, exec_bind, exec_refuse] at h
        cases h

/-- Putting a team into a pot, refused or not, keeps the pot table sound and assigns as
`PotsAssigned` says. -/
theorem putInPot_assigns (tid rid : String) (pot : Value) (i : Seed.Issued) (hs : s.PotsSound) :
    let s' := (exec (putInPot tid rid pot) s i).2.1
    s'.PotsSound ∧ Store.PotsAssigned s s' := by
  rcases exec_putInPot tid rid pot s i with ⟨e, he⟩ | ⟨e, s₁, he, -⟩
  · rw [he]
    exact ⟨hs, .refl s⟩
  · rw [he]
    obtain ⟨r, k, hr, happ, hk, hup, -⟩ := exec_putInPot_eq_ok he
    obtain ⟨hmem, hkey⟩ := Store.mem_entrants_of_registrationIn? hr
    have hk' : 1 ≤ k ∧ k ≤ 4 := by
      have := List.mem_of_find?_eq_some hk
      simp only [List.mem_cons, List.not_mem_nil, or_false] at this
      omega
    have hs₁ : s₁ = (s.upsertPot tid rid k).2 := by rw [hup]
    subst hs₁
    exact ⟨hs.upsertPot (hkey ▸ List.mem_map_of_mem hmem) hk',
      Store.potsAssigned_upsertPot hs ⟨r, hmem, hkey, happ⟩⟩

/-- A single pot assignment, refused or not, keeps the pot table sound and assigns as
`PotsAssigned` says. -/
theorem assignPot_assigns (tid rid : String) (pot : Value) (actor : Actor) (i : Seed.Issued)
    (hs : s.PotsSound) :
    let s' := (exec (assignPot tid rid pot actor) s i).2.1
    s'.PotsSound ∧ Store.PotsAssigned s s' := by
  rcases ha : (exec (authorize tid actor .managePots) s i).1 with e | t
  · -- refused before anything is written
    have hr : exec (authorize tid actor .managePots) s i = (.error e, s, i) := by
      rw [exec_authorize, ha]
    rw [assignPot, exec_bind_of_error hr]
    exact ⟨hs, .refl s⟩
  · rw [exec_assignPot_of_allowed ha]
    exact putInPot_assigns tid rid pot i hs

/-- Clearing a tournament's pots, refused or not, only drops rows. -/
theorem clearPots_drops (tid : String) (actor : Actor) (s : Store) (i : Seed.Issued) :
    let s' := (exec (clearPots tid actor) s i).2.1
    s'.tables.pots.Sublist s.tables.pots ∧ s'.counters.pots = s.counters.pots ∧
      s'.entrants = s.entrants := by
  rcases ha : (exec (authorize tid actor .managePots) s i).1 with e | t
  · have hr : exec (authorize tid actor .managePots) s i = (.error e, s, i) := by
      rw [exec_authorize, ha]
    rw [clearPots, exec_bind_of_error hr]
    exact ⟨List.Sublist.refl _, rfl, rfl⟩
  · have hr : exec (authorize tid actor .managePots) s i = (.ok t, s, i) := by
      rw [exec_authorize, ha]
    rw [clearPots, exec_bind_of_ok hr]
    exact ⟨List.filter_sublist, rfl, rfl⟩

/-- The pot draw, refused or not, leaves the pot rows, the pot numbers handed out and the
entrants as they were. -/
theorem potDraw_keeps (tid : String) (groups : Value) (strict : Bool) (actor : Actor)
    (s : Store) (i : Seed.Issued) :
    (exec (potDraw tid groups strict actor) s i).2.1.potView = s.potView :=
  keeps_potDraw tid groups strict actor s i

end Txn

namespace Store

/-- One request of a bulk assignment, refused or not, keeps the pot table sound and assigns as
`PotsAssigned` says. -/
theorem assignPotStep_assigns (tid : String)
    (acc : Except ServiceError (List PotEntry) × Store × Seed.Issued) (q : PotRequest)
    (hs : acc.2.1.PotsSound) :
    (assignPotStep tid acc q).2.1.PotsSound ∧ PotsAssigned acc.2.1 (assignPotStep tid acc q).2.1 := by
  obtain ⟨r, s, i⟩ := acc
  obtain ⟨reg, pot⟩ := q
  cases r with
  | error e => exact ⟨hs, .refl s⟩
  | ok done =>
    cases reg with
    | none => exact ⟨hs, .refl s⟩
    | some rid =>
      cases pot with
      | none => exact ⟨hs, .refl s⟩
      | some pot =>
        have h := Txn.putInPot_assigns tid rid pot i hs
        simp only [assignPotStep]
        split <;> simp_all

theorem foldl_assignPotStep_assigns (tid : String) :
    ∀ (reqs : List PotRequest) (acc : Except ServiceError (List PotEntry) × Store × Seed.Issued),
      acc.2.1.PotsSound →
      (reqs.foldl (assignPotStep tid) acc).2.1.PotsSound ∧
        PotsAssigned acc.2.1 (reqs.foldl (assignPotStep tid) acc).2.1
  | [], acc, hs => ⟨hs, .refl _⟩
  | q :: rest, acc, hs => by
    obtain ⟨hs₁, ha₁⟩ := assignPotStep_assigns tid acc q hs
    obtain ⟨hs₂, ha₂⟩ := foldl_assignPotStep_assigns tid rest _ hs₁
    exact ⟨hs₂, ha₁.trans ha₂⟩

/-- A bulk pot assignment, refused anywhere or not, keeps the pot table sound and assigns as
`PotsAssigned` says. -/
theorem assignPots_assigns {s : Store} (i : Seed.Issued) (tid : String) (actor : Actor)
    (reqs : List PotRequest) (hs : s.PotsSound) :
    (s.assignPots i tid actor reqs).2.1.PotsSound ∧
      PotsAssigned s (s.assignPots i tid actor reqs).2.1 := by
  rcases ha : (Txn.exec (Txn.authorize tid actor .managePots) s i).1 with e | t
  · have hr : Txn.exec (Txn.authorize tid actor .managePots) s i = (.error e, s, i) := by
      rw [Txn.exec_authorize, ha]
    rw [assignPots_of_refused hr]
    exact ⟨hs, .refl s⟩
  · have hr : Txn.exec (Txn.authorize tid actor .managePots) s i = (.ok t, s, i) := by
      rw [Txn.exec_authorize, ha]
    simp only [assignPots, hr]
    exact foldl_assignPotStep_assigns tid reqs _ hs

/-- A change of a registration's state changes no pot row, pot number handed out or entrant. -/
theorem setStatus_keeps {s s' : Store} {rid status : String} {b : Bool}
    (h : s.setStatus rid status = .ok (b, s')) :
    s'.tables.pots = s.tables.pots ∧ s'.counters.pots = s.counters.pots ∧
      s'.entrants = s.entrants := by
  simp only [setStatus] at h
  cases hw : Cell.writable [rid] with
  | error f => simp [hw, bind, Except.bind] at h
  | ok u =>
    cases hr : s.registration? rid with
    | none =>
      simp only [hw, hr] at h
      cases h
      exact ⟨rfl, rfl, rfl⟩
    | some r =>
      cases hw' : Cell.writable [status] with
      | error f => simp [hw, hr, hw', bind, Except.bind] at h
      | ok u' =>
        simp only [hw, hr, hw'] at h
        cases h
        refine ⟨rfl, rfl, ?_⟩
        simp only [entrants, modifyRegistration, List.map_map]
        apply List.map_congr_left
        intro x _
        by_cases hx : x.id = r.id <;> simp [hx]

end Store

/-! ### Steps of the pot service -/

/-- A request to the pot service that may change the store, or a change of a registration's
state. -/
inductive PotStep where
  | assign (tid rid : String) (pot : Value) (actor : Actor)
  | assignAll (tid : String) (actor : Actor) (reqs : List PotRequest)
  | clear (tid : String) (actor : Actor)
  | draw (tid : String) (groups : Value) (strict : Bool) (actor : Actor)
  | setStatus (rid status : String)

namespace PotStep

/-- The store a step leaves, whether it is refused or not. -/
def run (st : PotStep) (s : Store) (i : Seed.Issued) : Store :=
  match st with
  | .assign tid rid pot actor => (Txn.exec (Txn.assignPot tid rid pot actor) s i).2.1
  | .assignAll tid actor reqs => (s.assignPots i tid actor reqs).2.1
  | .clear tid actor => (Txn.exec (Txn.clearPots tid actor) s i).2.1
  | .draw tid groups strict actor => (Txn.exec (Txn.potDraw tid groups strict actor) s i).2.1
  | .setStatus rid status =>
    match s.setStatus rid status with
    | .ok (_, s') => s'
    | .error _ => s

/-- The stores that steps reach from a store, each step with any seeds. -/
inductive Reaches (s₀ : Store) : Store → Prop
  | start : Reaches s₀ s₀
  | step {s : Store} (st : PotStep) (i : Seed.Issued) : Reaches s₀ s → Reaches s₀ (st.run s i)

/-- Every step keeps a sound pot table sound, and writes to it as `PotsWritten` says. -/
theorem run_sound (st : PotStep) {s : Store} (hs : s.PotsSound) (i : Seed.Issued) :
    (st.run s i).PotsSound ∧ Store.PotsWritten s (st.run s i) := by
  cases st with
  | assign tid rid pot actor =>
    obtain ⟨h₁, h₂⟩ := Txn.assignPot_assigns tid rid pot actor i hs
    exact ⟨h₁, h₂.written⟩
  | assignAll tid actor reqs =>
    obtain ⟨h₁, h₂⟩ := Store.assignPots_assigns i tid actor reqs hs
    exact ⟨h₁, h₂.written⟩
  | clear tid actor =>
    obtain ⟨hsub, hc, he⟩ := Txn.clearPots_drops tid actor s i
    exact hs.of_sublist hsub hc he
  | draw tid groups strict actor =>
    have h := Txn.potDraw_keeps tid groups strict actor s i
    simp only [Store.potView, Prod.mk.injEq] at h
    exact hs.of_sublist (h.1 ▸ List.Sublist.refl _) h.2.1 h.2.2
  | setStatus rid status =>
    simp only [run]
    split
    · obtain ⟨hp, hc, he⟩ := Store.setStatus_keeps ‹_›
      exact hs.of_sublist (hp ▸ List.Sublist.refl _) hc he
    · exact hs.of_sublist (List.Sublist.refl _) rfl rfl

/-- From a store with a sound pot table, every store the steps reach has one. -/
theorem Reaches.sound {s₀ s : Store} (h₀ : s₀.PotsSound) (h : Reaches s₀ s) : s.PotsSound := by
  induction h with
  | start => exact h₀
  | step st i _ ih => exact (run_sound st ih i).1

end PotStep

/-! ### Reading the pots -/

namespace Store

/-- The pot rows of a tournament are read by pot, then time, then registration. -/
theorem potsOf_pairwise (s : Store) (tid : String) :
    (s.potsOf tid).Pairwise fun a b => a.pot < b.pot ∨ (a.pot = b.pot ∧
      (a.stamp < b.stamp ∨ (a.stamp = b.stamp ∧ a.registration ≤ b.registration))) := by
  have h := @List.pairwise_mergeSort _ (fun (a b : PotEntry) => decide (a.pot < b.pot ∨
      (a.pot = b.pot ∧ (a.stamp < b.stamp ∨ (a.stamp = b.stamp ∧ a.registration ≤ b.registration)))))
    ?_ ?_ (s.tables.pots.filter (·.tournament == tid))
  · rw [potsOf]
    simpa only [decide_eq_true_eq] using h
  · -- the order is transitive: by pot, then time, then the registration's text
    intro a b c hab hbc
    simp only [decide_eq_true_eq] at hab hbc ⊢
    rcases hab with hab | ⟨hab, hab' | ⟨hab', hab''⟩⟩ <;>
      rcases hbc with hbc | ⟨hbc, hbc' | ⟨hbc', hbc''⟩⟩
    all_goals first
      | (left; omega)
      | (right; exact ⟨by omega, by left; omega⟩)
      | (right; exact ⟨by omega, by right; exact ⟨by omega, String.le_trans hab'' hbc''⟩⟩)
  · -- and total: rows of one pot and time are ordered by registration
    intro a b
    simp only [Bool.or_eq_true, decide_eq_true_eq]
    rcases lt_trichotomy a.pot b.pot with hp | hp | hp
    · exact .inl (.inl hp)
    · rcases lt_trichotomy a.stamp b.stamp with hs | hs | hs
      · exact .inl (.inr ⟨hp, .inl hs⟩)
      · rcases String.le_total a.registration b.registration with hr | hr
        · exact .inl (.inr ⟨hp, .inr ⟨hs, hr⟩⟩)
        · exact .inr (.inr ⟨hp.symm, .inr ⟨hs.symm, hr⟩⟩)
      · exact .inr (.inr ⟨hp.symm, .inl hs⟩)
    · exact .inr (.inl hp)

/-- Every row of a sound table is under one of the four pots, so reading the four pots lists
each row once. -/
theorem flatMap_pots_perm {l : List PotEntry} (hl : ∀ p ∈ l, 1 ≤ p.pot ∧ p.pot ≤ 4) :
    ([1, 2, 3, 4].flatMap fun (p : Nat) => l.filter (·.pot == (p : Int))).Perm l := by
  rw [List.perm_iff_count]
  intro a
  have hcount : ∀ p : Int, (l.filter (·.pot == p)).count a = if a.pot = p then l.count a else 0 := by
    intro p
    split
    · exact List.count_filter (by simpa)
    · exact List.count_eq_zero.2 fun h => by simp_all [List.mem_filter]
  simp only [List.flatMap_cons, List.flatMap_nil, List.append_nil, List.count_append, hcount]
  by_cases ha : a ∈ l
  · have := hl a ha
    have h4 : a.pot = 1 ∨ a.pot = 2 ∨ a.pot = 3 ∨ a.pot = 4 := by omega
    rcases h4 with h | h | h | h <;> simp [h]
  · simp [List.count_eq_zero.2 ha]

section Reading

variable {s s' : Store}

/-- The rows of a tournament, in the order they are read. -/
theorem potsOf_perm (s : Store) (tid : String) :
    (s.potsOf tid).Perm (s.tables.pots.filter (·.tournament == tid)) :=
  List.mergeSort_perm _ _

/-- In a sound table the four pots of a tournament together hold each of its rows once. -/
theorem PotsSound.pots_perm (hs : s.PotsSound) (tid : String) :
    ([1, 2, 3, 4].flatMap fun (p : Nat) => (s.potsOf tid).filter (·.pot == (p : Int))).Perm
      (s.tables.pots.filter (·.tournament == tid)) := by
  refine (flatMap_pots_perm ?_).trans (potsOf_perm s tid)
  intro p hp
  exact hs.inRange p (List.mem_of_mem_filter ((potsOf_perm s tid).subset hp))

/-- After a step that writes as `PotsWritten` says, a registration's row keeps the id and time
it had before. -/
theorem PotsWritten.keeps_row (hw : PotsWritten s s') (hs : s.PotsSound) :
    ∀ p' ∈ s'.tables.pots, ∀ p ∈ s.tables.pots, p.key = p'.key →
      p.id = p'.id ∧ p.stamp = p'.stamp := by
  intro p' hp' p hp hk
  rcases hw p' hp' with hold | ⟨-, hsame⟩
  · -- a row that was there already is the only row of its key
    have : p = p' := List.inj_on_of_nodup_map hs.unique hp hold hk
    simp [this]
  · exact hsame p hp hk

end Reading

end Store

namespace Txn

variable {s : Store} {tid : String} {t : Tournament}

/-- The pots of an existing tournament: for each pot 1 to 4, its rows in the order they are
read. -/
theorem exec_potEntries (hw : Cell.writable [tid] = .ok ()) (ht : s.tournament? tid = some t)
    (i : Seed.Issued) :
    exec (potEntries tid) s i =
      (.ok ([1, 2, 3, 4].map fun (p : Nat) => (p, (s.potsOf tid).filter (·.pot == (p : Int)))),
        s, i) := by
  simp only [potEntries, exec_bind, exec_tournament_of_writable hw, ht, exec_get, exec_pure]

/-- Checking the pots of an existing tournament counts each pot's rows, and finds them uneven
exactly when an expected count is a true value and some pot holds rows not of that count. -/
theorem exec_checkPots (hw : Cell.writable [tid] = .ok ()) (ht : s.tournament? tid = some t)
    (expected : Value) (i : Seed.Issued) :
    ∃ c, (exec (checkPots tid expected) s i).1 = .ok c ∧
      c.counts = [1, 2, 3, 4].map
        (fun (p : Nat) => (p, ((s.potsOf tid).filter (·.pot == (p : Int))).length)) ∧
      (c.valid = true ↔ ¬ (expected.truthy = true ∧
        ∃ pc ∈ c.counts, (Value.int pc.2).eqv expected = false ∧ pc.2 ≠ 0)) := by
  have hp := exec_potEntries hw ht i
  have hcounts : ∀ {l : List (Nat × List PotEntry)},
      l = [1, 2, 3, 4].map (fun (p : Nat) => (p, (s.potsOf tid).filter (·.pot == (p : Int)))) →
      l.map (fun x => (x.1, x.2.length)) = [1, 2, 3, 4].map
        (fun (p : Nat) => (p, ((s.potsOf tid).filter (·.pot == (p : Int))).length)) := by
    rintro _ rfl
    simp
  rw [checkPots, exec_bind, hp]
  dsimp only
  split
  · -- an expected count that is a true value: uneven exactly when some pot misses it
    rename_i htruthy
    split
    next pc c heq =>
      refine ⟨_, rfl, hcounts rfl, ?_⟩
      have hmem := List.mem_of_find?_eq_some heq
      have hpred := List.find?_some heq
      simp only [Bool.not_eq_true', decide_eq_true_eq] at hpred
      simp only [Bool.false_eq_true, false_iff, not_not]
      exact ⟨htruthy, _, hmem, hpred⟩
    next hnone =>
      refine ⟨_, rfl, hcounts rfl, ?_⟩
      -- no pot was found missing the expected count
      have hfind : List.find? _ _ = none :=
        Option.eq_none_iff_forall_ne_some.2 fun (y : Nat × Nat) h => hnone y.1 y.2 h
      simp only [true_iff, not_and, not_exists]
      intro _ x hx hfalse hne
      have := List.find?_eq_none.1 hfind x hx
      simp [hfalse, hne] at this
  · rename_i hfalse
    refine ⟨_, rfl, hcounts rfl, ?_⟩
    simp [hfalse]

/-- Reading the pots of a tournament with a sound table: the four pots 1 to 4, every row of
the tournament listed once and under its own pot, and each pot in order of time. -/
theorem potEntries_lists_rows (hs : s.PotsSound) (hw : Cell.writable [tid] = .ok ())
    (ht : s.tournament? tid = some t) (i : Seed.Issued) :
    ∃ view, (exec (potEntries tid) s i).1 = .ok view ∧ view.map Prod.fst = [1, 2, 3, 4] ∧
      (view.flatMap Prod.snd).Perm (s.tables.pots.filter (·.tournament == tid)) ∧
      (∀ kp ∈ view, ∀ p ∈ kp.2, p.pot = kp.1) ∧
      ∀ kp ∈ view, kp.2.Pairwise fun a b => a.stamp ≤ b.stamp := by
  refine ⟨_, by rw [exec_potEntries hw ht i], by simp, ?_, ?_, ?_⟩
  · rw [List.flatMap_map]
    exact hs.pots_perm tid
  · simp only [List.mem_map]
    rintro _ ⟨k, -, rfl⟩ p hp
    simpa using (List.mem_filter.1 hp).2
  · simp only [List.mem_map]
    rintro _ ⟨k, -, rfl⟩
    -- rows of one pot are read by time, the pot being the first key of the order
    refine ((Store.potsOf_pairwise s tid).filter _).imp_of_mem ?_
    intro a b ha hb hab
    have hpa := (List.mem_filter.1 ha).2
    have hpb := (List.mem_filter.1 hb).2
    simp only [beq_iff_eq] at hpa hpb
    rcases hab with hlt | ⟨-, hlt | ⟨heq, -⟩⟩ <;> omega

/-- Checking the pots of a tournament with a sound table against a positive count: the counts
add up to the tournament's rows, and the pots are even exactly when each holds no row or that
count. -/
theorem checkPots_counts_rows (hs : s.PotsSound) (hw : Cell.writable [tid] = .ok ())
    (ht : s.tournament? tid = some t) {e : Int} (he : 0 < e) (i : Seed.Issued) :
    ∃ c, (exec (checkPots tid (.int e)) s i).1 = .ok c ∧
      (c.counts.map Prod.snd).sum = (s.tables.pots.filter (·.tournament == tid)).length ∧
      (c.valid = true ↔ ∀ pc ∈ c.counts, pc.2 = 0 ∨ (pc.2 : Int) = e) := by
  obtain ⟨c, hc, hcounts, hvalid⟩ := exec_checkPots hw ht (.int e) i
  refine ⟨c, hc, ?_, ?_⟩
  · -- the counts are the sizes of the four pots, which together hold each row once
    rw [hcounts, ← (hs.pots_perm tid).length_eq, List.length_flatMap, List.map_map]
    rfl
  · have htruthy : (Value.int e).truthy = true := by
      simp only [Value.truthy, bne_iff_ne, ne_eq]
      omega
    rw [hvalid]
    simp only [htruthy, Value.eqv_int, true_and, not_exists, not_and, decide_eq_false_iff_not]
    constructor
    · intro h pc hpc
      by_cases h0 : pc.2 = 0
      · exact .inl h0
      · exact .inr (Classical.not_not.1 fun hne => h pc hpc hne h0)
    · rintro h pc hpc hne h0
      rcases h pc hpc with h' | h'
      · exact h0 h'
      · exact hne h'

end Txn

/-- The pot table stays sound through every run of the pot service, however its requests are
answered and whatever happens to the registrations: one row per registration and tournament,
under a pot from 1 to 4 and for a registration of that tournament. Each step writes a row only
for a registration approved when it is written, and a row that stays keeps its id and time.
Reading a tournament's pots lists its rows once each, under their pots and in order of time,
and checking them against a positive count adds them all up and finds them even exactly when
every pot is empty or holds that count. -/
theorem pot_table_sound_and_read_in_order {s₀ s : Store} (h₀ : s₀.PotsSound)
    (h : PotStep.Reaches s₀ s) :
    s.PotsSound ∧
    (∀ (st : PotStep) (i : Seed.Issued), ∀ p' ∈ (st.run s i).tables.pots,
      (p' ∈ s.tables.pots ∨ s.ApprovedIn p'.key) ∧
      ∀ p ∈ s.tables.pots, p.key = p'.key → p.id = p'.id ∧ p.stamp = p'.stamp) ∧
    ∀ (tid : String) (t : Tournament), Cell.writable [tid] = .ok () →
      s.tournament? tid = some t → ∀ i : Seed.Issued,
      (∃ view, (Txn.exec (Txn.potEntries tid) s i).1 = .ok view ∧
        view.map Prod.fst = [1, 2, 3, 4] ∧
        (view.flatMap Prod.snd).Perm (s.tables.pots.filter (·.tournament == tid)) ∧
        (∀ kp ∈ view, ∀ p ∈ kp.2, p.pot = kp.1) ∧
        ∀ kp ∈ view, kp.2.Pairwise fun a b => a.stamp ≤ b.stamp) ∧
      ∀ e : Int, 0 < e → ∃ c, (Txn.exec (Txn.checkPots tid (.int e)) s i).1 = .ok c ∧
        (c.counts.map Prod.snd).sum = (s.tables.pots.filter (·.tournament == tid)).length ∧
        (c.valid = true ↔ ∀ pc ∈ c.counts, pc.2 = 0 ∨ (pc.2 : Int) = e) := by
  have hs := h.sound h₀
  refine ⟨hs, ?_, fun tid t hw ht i =>
    ⟨Txn.potEntries_lists_rows hs hw ht i, fun e he => Txn.checkPots_counts_rows hs hw ht he i⟩⟩
  intro st i p' hp'
  have hwritten := (PotStep.run_sound st hs i).2
  refine ⟨?_, hwritten.keeps_row hs p' hp'⟩
  rcases hwritten p' hp' with hold | ⟨happ, -⟩
  · exact .inl hold
  · exact .inr happ

/-- An empty pot table is sound, and stays so after any first request. -/
theorem pot_table_sound_after_first_request :
    ({} : Store).PotsSound ∧
      PotStep.Reaches {} ((PotStep.assign "T" "R1" (.int 2) {}).run {} {}) ∧
      ((PotStep.assign "T" "R1" (.int 2) {}).run {} {}).PotsSound :=
  ⟨Store.potsSound_of_nil rfl, .step _ _ .start,
    (pot_table_sound_and_read_in_order (Store.potsSound_of_nil rfl) (.step _ _ .start)).1⟩

end TournamentDraw
