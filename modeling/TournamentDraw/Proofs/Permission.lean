import TournamentDraw.Proofs.Atomic
import TournamentDraw.Api.Handle

/-!
# Who may change a tournament

Every request that changes a tournament authorizes its actor before it does anything else:
the tournament must exist, and an actor that names a user or a role must be its organizer or
an administrator. So a request on a missing tournament is refused as such, one by any other
actor is refused as forbidden, and neither changes the store, its counters and seeds included.
A request leaves the tables changed only when its tournament exists and lets its actor act.
The requests that only read a tournament never refuse an actor.

The store looks the tournament up by its id, so an id that UTF-8 cannot write (one that holds
a lone surrogate) is refused by the store before the tournament is found missing.
-/

namespace TournamentDraw

/-- Whether a tournament lets an actor change it: an actor with neither user nor role, the
tournament's organizer, or an administrator. -/
def Tournament.allows (t : Tournament) (a : Actor) : Prop :=
  (a.user = none ∧ a.role = none) ∨ t.organizer = a.user ∨ a.isAdmin = true

instance (t : Tournament) (a : Actor) : Decidable (t.allows a) :=
  inferInstanceAs (Decidable (_ ∨ _ ∨ _))

theorem ServiceError.kind_eq_forbidden {e : ServiceError} :
    e.kind = .forbidden ↔ ∃ a, e = .forbidden a := by
  constructor
  · intro h
    cases e <;> simp_all [ServiceError.kind] <;> split at h <;> simp_all
  · rintro ⟨a, rfl⟩
    rfl

namespace Txn

theorem discard_bind {α β : Type} (x : Txn α) (f : α → Txn β) :
    discard (x >>= f) = x >>= fun a => discard (f a) := by
  simp only [discard, LawfulFunctor.map_const, Function.comp_apply, map_bind]

theorem discard_eq_bind {α : Type} (t : Txn α) : discard t = t >>= fun _ => pure () := by
  simp only [discard, LawfulFunctor.map_const]
  rfl

section Authorize

variable {tid : String} {actor : Actor} {act : Action} {s : Store} {i : Seed.Issued}

theorem exec_tournament_of_writable (hw : Cell.writable [tid] = .ok ()) :
    exec (tournament tid) s i = (match s.tournament? tid with
      | some t => .ok t
      | none => .error .tournamentNotFound, s, i) := by
  simp only [tournament, bound, exec_bind, exec_cell, hw, exec_get]
  cases s.tournament? tid <;> rfl

theorem exec_authorize_of_missing (hw : Cell.writable [tid] = .ok ())
    (h : s.tournament? tid = none) :
    exec (authorize tid actor act) s i = (.error .tournamentNotFound, s, i) := by
  rw [authorize, exec_bind, exec_tournament_of_writable hw, h]

theorem exec_authorize_of_disallowed {t : Tournament} (hw : Cell.writable [tid] = .ok ())
    (h : s.tournament? tid = some t) (hn : ¬ t.allows actor) :
    exec (authorize tid actor act) s i = (.error (.forbidden act), s, i) := by
  simp only [Tournament.allows, not_or] at hn
  obtain ⟨hanon, horg, hadmin⟩ := hn
  have hanon' : ¬ (actor.user.isNone = true ∧ actor.role.isNone = true) := by
    simpa only [Option.isNone_iff_eq_none] using hanon
  rw [authorize, exec_bind, exec_tournament_of_writable hw, h]
  simp only [hanon', horg, hadmin, if_false, ne_eq, not_false_eq_true, Bool.not_false, and_self,
    if_true]
  rfl

/-- An id that the store cannot look for is refused by the store, before the tournament is
looked for. -/
theorem exec_authorize_of_unwritable {f : CellFault} (hw : Cell.writable [tid] = .error f) :
    exec (authorize tid actor act) s i = (.error (.cell f), s, i) := by
  simp only [authorize, tournament, bound, exec_bind, exec_cell, hw]

/-- An actor that authorizing lets through acts on an existing tournament that allows it. -/
theorem allows_of_authorize {t : Tournament} (h : (exec (authorize tid actor act) s i).1 = .ok t) :
    s.tournament? tid = some t ∧ t.allows actor := by
  have ht := tournament?_of_authorize h
  refine ⟨ht, ?_⟩
  by_cases hn : t.allows actor
  · exact hn
  · -- the tournament was found, so its id was one the store could look for
    cases hw : Cell.writable [tid] with
    | error f =>
      rw [exec_authorize_of_unwritable hw] at h
      cases h
    | ok u =>
      rw [exec_authorize_of_disallowed hw ht hn] at h
      cases h

end Authorize

end Txn

/-! ### Requests that change a tournament -/

/-- The tournament a request acts on. -/
def Request.tid : Request → String
  | .executeDraw _ tid .. | .moveTeams tid .. | .resetDraw tid .. | .createGroup tid ..
  | .updateGroup tid .. | .generate _ tid .. | .recordScore tid .. | .forceAdvance tid ..
  | .seedKnockout tid .. | .assignPot tid .. | .clearPots tid .. | .potDraw tid .. => tid

/-- The acting user of a request. -/
def Request.actor : Request → Actor
  | .executeDraw _ _ a .. | .moveTeams _ a .. | .resetDraw _ a | .createGroup _ a ..
  | .updateGroup _ _ a .. | .generate _ _ a .. | .recordScore _ _ a .. | .forceAdvance _ _ _ a ..
  | .seedKnockout _ a .. | .assignPot _ _ _ a | .clearPots _ a | .potDraw _ _ _ a => a

/-- The act a request needs its actor to be allowed. -/
def Request.action : Request → Action
  | .executeDraw .. => .executeDraw
  | .moveTeams .. => .updateBracket
  | .resetDraw .. => .resetDraw
  | .createGroup .. => .createGroups
  | .updateGroup .. => .updateGroups
  | .generate .. | .seedKnockout .. => .manageBrackets
  | .recordScore .. | .forceAdvance .. => .manageMatches
  | .assignPot .. | .clearPots .. | .potDraw .. => .managePots

namespace Request

/-- Every request authorizes its actor first, the draws inside a block that is rolled back when
refused. -/
theorem txn_eq_authorize (r : Request) :
    (∃ k, r.txn = Txn.authorize r.tid r.actor r.action >>= k) ∨
      ∃ (β : Type) (k : Tournament → Txn β),
        r.txn = discard (Txn.atomically (Txn.authorize r.tid r.actor r.action >>= k)) := by
  cases r with
  | resetDraw tid actor => exact .inl ⟨_, rfl⟩
  | executeDraw => exact .inr ⟨_, _, rfl⟩
  | potDraw => exact .inr ⟨_, _, rfl⟩
  | _ => exact .inl ⟨_, Txn.discard_bind _ _⟩

variable {r : Request} {s : Store} {i : Seed.Issued}

/-- A request whose authorizing is refused without touching the store is refused with it. -/
theorem exec_of_authorize_error {e : ServiceError}
    (h : Txn.exec (Txn.authorize r.tid r.actor r.action) s i = (.error e, s, i)) :
    Txn.exec r.txn s i = (.error e, s, i) := by
  obtain ⟨k, hk⟩ | ⟨β, k, hk⟩ := r.txn_eq_authorize
  · rw [hk]
    exact Txn.exec_bind_of_error h
  · -- the rolled back block puts back the tables it found, which nothing changed
    have hblock : Txn.exec (Txn.atomically (Txn.authorize r.tid r.actor r.action >>= k)) s i =
        (.error e, s, i) := by
      rw [Txn.exec_atomically, Txn.exec_bind_of_error h]
      simp only [Store.rollback_self]
    rw [hk, Txn.discard_eq_bind]
    exact Txn.exec_bind_of_error hblock

theorem exec_of_missing (hw : Cell.writable [r.tid] = .ok ()) (h : s.tournament? r.tid = none) :
    Txn.exec r.txn s i = (.error .tournamentNotFound, s, i) :=
  exec_of_authorize_error (Txn.exec_authorize_of_missing hw h)

theorem exec_of_disallowed {t : Tournament} (hw : Cell.writable [r.tid] = .ok ())
    (h : s.tournament? r.tid = some t) (hn : ¬ t.allows r.actor) :
    Txn.exec r.txn s i = (.error (.forbidden r.action), s, i) :=
  exec_of_authorize_error (Txn.exec_authorize_of_disallowed hw h hn)

theorem exec_of_unwritable {f : CellFault} (hw : Cell.writable [r.tid] = .error f) :
    Txn.exec r.txn s i = (.error (.cell f), s, i) :=
  exec_of_authorize_error (Txn.exec_authorize_of_unwritable hw)

/-- A request that leaves the tables changed acts on an existing tournament that allows its
actor. -/
theorem allows_of_changed (h : (Txn.exec r.txn s i).2.1.tables ≠ s.tables) :
    ∃ t, s.tournament? r.tid = some t ∧ t.allows r.actor := by
  rcases ha : (Txn.exec (Txn.authorize r.tid r.actor r.action) s i).1 with e | t
  · -- refused by authorizing, which changes nothing
    have hr : Txn.exec (Txn.authorize r.tid r.actor r.action) s i = (.error e, s, i) := by
      rw [Txn.exec_authorize, ha]
    rw [exec_of_authorize_error hr] at h
    exact absurd rfl h
  · exact ⟨t, Txn.allows_of_authorize ha⟩

end Request

/-- The text of the lone surrogate `U+D800`. -/
def loneSurrogate : String :=
  Text.ofCodePoints [0xD800]

namespace Store

variable {s : Store} {i : Seed.Issued} {tid : String} {actor : Actor} {reqs : List PotRequest}

theorem assignPots_of_refused {e : ServiceError}
    (h : Txn.exec (Txn.authorize tid actor .managePots) s i = (.error e, s, i)) :
    s.assignPots i tid actor reqs = (.error e, s, i) := by
  simp only [assignPots, h]

theorem assignPots_of_unwritable {f : CellFault} (hw : Cell.writable [tid] = .error f) :
    s.assignPots i tid actor reqs = (.error (.cell f), s, i) :=
  assignPots_of_refused (Txn.exec_authorize_of_unwritable hw)

theorem assignPots_of_missing (hw : Cell.writable [tid] = .ok ()) (h : s.tournament? tid = none) :
    s.assignPots i tid actor reqs = (.error .tournamentNotFound, s, i) :=
  assignPots_of_refused (Txn.exec_authorize_of_missing hw h)

theorem assignPots_of_disallowed {t : Tournament} (hw : Cell.writable [tid] = .ok ())
    (h : s.tournament? tid = some t) (hn : ¬ t.allows actor) :
    s.assignPots i tid actor reqs = (.error (.forbidden .managePots), s, i) :=
  assignPots_of_refused (Txn.exec_authorize_of_disallowed hw h hn)

/-- A bulk pot assignment that leaves the tables changed acts on an existing tournament that
allows its actor. -/
theorem allows_of_assignPots_changed (h : (s.assignPots i tid actor reqs).2.1.tables ≠ s.tables) :
    ∃ t, s.tournament? tid = some t ∧ t.allows actor := by
  rcases ha : (Txn.exec (Txn.authorize tid actor .managePots) s i).1 with e | t
  · have hr : Txn.exec (Txn.authorize tid actor .managePots) s i = (.error e, s, i) := by
      rw [Txn.exec_authorize, ha]
    rw [assignPots_of_refused hr] at h
    exact absurd rfl h
  · exact ⟨t, Txn.allows_of_authorize ha⟩

end Store

/-! ### Requests that only read -/

namespace Txn

/-- A request that refuses no actor as forbidden, whatever the store and the seeds. -/
def NeverForbids {α : Type} (t : Txn α) : Prop :=
  ∀ s i e, (exec t s i).1 = .error e → e.kind ≠ .forbidden

section NeverForbids

variable {α β : Type}

theorem NeverForbids.bind {x : Txn α} {f : α → Txn β} (hx : NeverForbids x)
    (hf : ∀ a, NeverForbids (f a)) : NeverForbids (x >>= f) := by
  intro s i e h
  rw [exec_bind] at h
  rcases hr : exec x s i with ⟨r, s', i'⟩
  rw [hr] at h
  cases r with
  | ok a => exact hf a s' i' e h
  | error e' =>
    -- the refusal of the first part, passed on
    dsimp only at h
    cases h
    apply hx s i e
    rw [hr]

theorem neverForbids_pure (a : α) : NeverForbids (pure a : Txn α) := by
  intro s i e h
  cases h

theorem neverForbids_get : NeverForbids (get : Txn Store) := by
  intro s i e h
  cases h

/-- A refusal other than a forbidden act never forbids. -/
theorem neverForbids_refuse {e : ServiceError} (he : ∀ a, e ≠ .forbidden a) :
    NeverForbids (refuse e : Txn α) := by
  intro s i e' h hk
  cases h
  obtain ⟨a, rfl⟩ := ServiceError.kind_eq_forbidden.1 hk
  exact he a rfl

theorem neverForbids_bound (texts : List String) : NeverForbids (bound texts) := by
  intro s i e h hk
  obtain ⟨a, rfl⟩ := ServiceError.kind_eq_forbidden.1 hk
  simp only [exec_bound] at h
  cases hw : Cell.writable texts <;> simp [hw, Except.mapError] at h

theorem neverForbids_operand (r : Except OperandError α) : NeverForbids (operand r) := by
  intro s i e h hk
  obtain ⟨a, rfl⟩ := ServiceError.kind_eq_forbidden.1 hk
  simp only [exec_operand] at h
  cases r <;> simp [Except.mapError] at h

theorem neverForbids_tournament (tid : String) : NeverForbids (tournament tid) := by
  refine (neverForbids_bound [tid]).bind fun _ => neverForbids_get.bind fun s => ?_
  cases s.tournament? tid with
  | some t => exact neverForbids_pure t
  | none => exact neverForbids_refuse fun a => nofun

/-- A stored competition that does not read is refused as unreadable, never as forbidden. -/
theorem neverForbids_readStored (b : StoredBracket) : NeverForbids (readStored b) := by
  intro s i e h hk
  obtain ⟨a, rfl⟩ := ServiceError.kind_eq_forbidden.1 hk
  rw [exec_readStored] at h
  cases hd : b.data <;> simp [hd, Except.mapError] at h

theorem neverForbids_stored (tid : String) (age : Option String) :
    NeverForbids (stored tid age) := by
  refine (neverForbids_bound _).bind fun _ => neverForbids_get.bind fun s => ?_
  cases s.bracket? tid age with
  | some b => exact neverForbids_readStored b
  | none => exact neverForbids_refuse fun a => nofun

theorem neverForbids_storedFixtures (tid : String) (age : Option String) :
    NeverForbids (storedFixtures tid age) := by
  refine neverForbids_get.bind fun s => ?_
  cases s.bracket? tid age with
  | some b => exact (neverForbids_readStored b).bind fun _ => neverForbids_pure _
  | none => exact neverForbids_pure _

theorem neverForbids_foldlM {γ : Type} (f : β → γ → Txn β) (hf : ∀ b c, NeverForbids (f b c)) :
    ∀ (l : List γ) (init : β), NeverForbids (l.foldlM f init)
  | [], init => neverForbids_pure init
  | c :: l, init => (hf init c).bind fun b => neverForbids_foldlM f hf l b

end NeverForbids

theorem neverForbids_groupViews (tid : String) : NeverForbids (groupViews tid) :=
  (neverForbids_tournament tid).bind fun _ => neverForbids_get.bind fun _ => neverForbids_pure _

theorem neverForbids_allMatches (tid : String) (age : Option String) :
    NeverForbids (allMatches tid age) :=
  (neverForbids_tournament tid).bind fun _ =>
    (neverForbids_stored tid age).bind fun _ => neverForbids_pure _

theorem neverForbids_tables (tid : String) (age : Option String) :
    NeverForbids (tables tid age) :=
  (neverForbids_tournament tid).bind fun _ => (neverForbids_bound _).bind fun _ =>
    (neverForbids_storedFixtures tid age).bind fun _ => neverForbids_get.bind fun _ =>
      neverForbids_foldlM _ (fun _ _ => (neverForbids_operand _).bind fun _ => neverForbids_pure _)
        _ _

theorem neverForbids_potEntries (tid : String) : NeverForbids (potEntries tid) :=
  (neverForbids_tournament tid).bind fun _ => neverForbids_get.bind fun _ => neverForbids_pure _

theorem neverForbids_checkPots (tid : String) (expected : Value) :
    NeverForbids (checkPots tid expected) := by
  refine (neverForbids_potEntries tid).bind fun pots => ?_
  -- what follows the pot entries only computes the answer
  split
  · dsimp only
    split <;> exact neverForbids_pure _
  · exact neverForbids_pure _

end Txn

theorem Api.neverForbids_overview (tid : String) (age : Option String) :
    Txn.NeverForbids (Api.overview tid age) := by
  refine (Txn.neverForbids_tournament tid).bind fun _ => (Txn.neverForbids_bound _).bind fun _ =>
    Txn.neverForbids_get.bind fun s => ?_
  -- the stored competition, when there is one, is read and written as a value
  dsimp only
  cases s.bracket? tid age with
  | some sb =>
    dsimp only
    rw [map_eq_pure_bind, bind_assoc]
    exact (Txn.neverForbids_readStored sb).bind fun _ => (Txn.neverForbids_pure _).bind fun _ =>
      (Txn.neverForbids_groupViews tid).bind fun _ => Txn.neverForbids_pure _
  | none =>
    dsimp only
    exact (Txn.neverForbids_pure _).bind fun _ =>
      (Txn.neverForbids_groupViews tid).bind fun _ => Txn.neverForbids_pure _

/-- A store with one tournament, `T`, organized by `o`. -/
def cupOf (organizer : String) : Store :=
  { tables := { tournaments := [{ id := "T", name := "Cup", organizer := some organizer }] } }

end TournamentDraw
