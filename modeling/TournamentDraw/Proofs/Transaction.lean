import TournamentDraw.Service.Groups
import TournamentDraw.Service.Competition
import TournamentDraw.Service.Pots
import Mathlib

/-!
# Running a request

A request (`Txn`) reads and writes the store as it goes and may be refused part-way. `Txn.exec`
runs it: what it wrote before a refusal stays written, unless it wrote inside `Txn.atomically`,
which puts the tables back. The lemmas here take a request apart one bind at a time and give the
outcome of each small block the services are built from, so that proofs about the services
never unfold the monad.
-/

namespace TournamentDraw

@[simp] theorem Store.rollback_self (s : Store) : s.rollback s = s := rfl

namespace Txn

theorem exec_bind {α β : Type} (x : Txn α) (f : α → Txn β) (s : Store) (i : Seed.Issued) :
    exec (x >>= f) s i = match exec x s i with
      | (.ok a, s', i') => exec (f a) s' i'
      | (.error e, s', i') => (.error e, s', i') := by
  simp only [exec, ExceptT.run_bind, StateT.run_bind]
  rcases h : (((x.run).run s).run i) with ⟨⟨r, s'⟩, i'⟩
  cases r <;> simp_all [StateT.run] <;> rfl

theorem exec_bind_of_ok {α β : Type} {x : Txn α} {f : α → Txn β} {s s' : Store}
    {i i' : Seed.Issued} {a : α} (h : exec x s i = (.ok a, s', i')) :
    exec (x >>= f) s i = exec (f a) s' i' := by
  rw [exec_bind, h]

theorem exec_bind_of_error {α β : Type} {x : Txn α} {f : α → Txn β} {s s' : Store}
    {i i' : Seed.Issued} {e : ServiceError} (h : exec x s i = (.error e, s', i')) :
    exec (x >>= f) s i = (.error e, s', i') := by
  rw [exec_bind, h]

@[simp] theorem exec_pure {α : Type} (a : α) (s : Store) (i : Seed.Issued) :
    exec (pure a : Txn α) s i = (.ok a, s, i) := rfl

@[simp] theorem exec_get (s : Store) (i : Seed.Issued) :
    exec (get : Txn Store) s i = (.ok s, s, i) := rfl

@[simp] theorem exec_set (s s' : Store) (i : Seed.Issued) :
    exec (set s' : Txn PUnit) s i = (.ok ⟨⟩, s', i) := rfl

@[simp] theorem exec_modify (f : Store → Store) (s : Store) (i : Seed.Issued) :
    exec (modify f : Txn PUnit) s i = (.ok ⟨⟩, f s, i) := rfl

@[simp] theorem exec_refuse {α : Type} (e : ServiceError) (s : Store) (i : Seed.Issued) :
    exec (refuse e : Txn α) s i = (.error e, s, i) := rfl

@[simp] theorem exec_cell {α : Type} (r : Except CellFault α) (s : Store) (i : Seed.Issued) :
    exec (cell r) s i = (match r with
      | .ok a => .ok a
      | .error f => .error (.cell f), s, i) := by
  cases r <;> rfl

/-- A handled block runs as the block does; a refusal is given to the handler, on the store
the block left. -/
theorem exec_tryCatch {α : Type} (t : Txn α) (h : ServiceError → Txn α) (s : Store)
    (i : Seed.Issued) :
    exec (tryCatchThe ServiceError t h) s i = match exec t s i with
      | (.ok a, s', i') => (.ok a, s', i')
      | (.error e, s', i') => exec (h e) s' i' := by
  simp only [exec, tryCatchThe, MonadExceptOf.tryCatch, ExceptT.tryCatch, ExceptT.run_mk,
    StateT.run_bind]
  rcases hr : (((t.run).run s).run i) with ⟨⟨r, s'⟩, i'⟩
  have hr' : t s i = ((r, s'), i') := hr
  cases r <;> simp [StateT.run, hr', bind] <;> rfl

/-- A transaction runs as its block does, except that a refusal puts the tables back as they
were before it; the numbers handed out stay used. -/
theorem exec_atomically {α : Type} (t : Txn α) (s : Store) (i : Seed.Issued) :
    exec (atomically t) s i = match exec t s i with
      | (.ok a, s', i') => (.ok a, s', i')
      | (.error e, s', i') => (.error e, s.rollback s', i') := by
  rw [atomically, exec_bind]
  show exec (tryCatchThe ServiceError t _) s i = _
  rw [exec_tryCatch]
  rcases exec t s i with ⟨_ | _, s', i'⟩ <;> rfl

theorem exec_atomically_eq_ok {α : Type} {t : Txn α} {s s' : Store} {i i' : Seed.Issued}
    {a : α} : exec (atomically t) s i = (.ok a, s', i') ↔ exec t s i = (.ok a, s', i') := by
  rw [exec_atomically]
  rcases exec t s i with ⟨_ | _, s₁, i₁⟩ <;> simp

theorem exec_tournament_of_tournaments {s s' : Store}
    (h : s'.tables.tournaments = s.tables.tournaments) (tid : String) (i i' : Seed.Issued) :
    exec (tournament tid) s' i' = ((exec (tournament tid) s i).1, s', i') := by
  simp only [tournament, bound, exec_bind, exec_cell]
  cases Cell.writable [tid] with
  | error f => rfl
  | ok u =>
    simp only [exec_get, Store.tournament?, h]
    cases s.tables.tournaments.find? (·.id == tid) <;> rfl

/-- Authorizing reads the tournaments and nothing else, and changes nothing. -/
theorem exec_authorize_of_tournaments {s s' : Store}
    (h : s'.tables.tournaments = s.tables.tournaments) (tid : String) (actor : Actor)
    (act : Action) (i i' : Seed.Issued) :
    exec (authorize tid actor act) s' i' = ((exec (authorize tid actor act) s i).1, s', i') := by
  have h' := exec_tournament_of_tournaments h tid i i'
  have h₀ := @exec_tournament_of_tournaments s s rfl tid i i
  simp only [authorize, exec_bind]
  rw [h', h₀]
  rcases (exec (tournament tid) s i).1 with e | t
  · rfl
  · dsimp only
    split
    · rfl
    · split <;> rfl

theorem exec_authorize (tid : String) (actor : Actor) (act : Action) (s : Store)
    (i : Seed.Issued) :
    exec (authorize tid actor act) s i = ((exec (authorize tid actor act) s i).1, s, i) :=
  exec_authorize_of_tournaments rfl tid actor act i i

theorem exec_authorize_eq_ok {tid : String} {actor : Actor} {act : Action} {s s' : Store}
    {i i' : Seed.Issued} {t : Tournament} :
    exec (authorize tid actor act) s i = (.ok t, s', i') ↔
      (exec (authorize tid actor act) s i).1 = .ok t ∧ s' = s ∧ i' = i := by
  rw [exec_authorize]
  simp [eq_comm]

/-- Authorizing reads the tournament's organizer and nothing else of the row: on a store
whose tournament is a changed copy with the same organizer, it answers the changed copy. -/
theorem authorize_of_tournament? {s s' : Store} {tid : String} {f : Tournament → Tournament}
    (h : s'.tournament? tid = (s.tournament? tid).map f)
    (horg : ∀ t, (f t).organizer = t.organizer) (actor : Actor) (act : Action)
    (i i' : Seed.Issued) :
    (exec (authorize tid actor act) s' i').1 = (exec (authorize tid actor act) s i).1.map f := by
  simp only [authorize, tournament, bound, exec_bind, exec_cell]
  cases Cell.writable [tid] with
  | error e => rfl
  | ok u =>
    simp only [exec_get, h]
    cases s.tournament? tid with
    | none => rfl
    | some t =>
      simp only [Option.map_some, exec_pure, horg]
      split
      · rfl
      · split <;> rfl

/-- An actor allowed to act on a tournament acts on the tournament with its id. -/
theorem tournament?_of_authorize {tid : String} {actor : Actor} {act : Action} {s : Store}
    {i : Seed.Issued} {t : Tournament} (h : (exec (authorize tid actor act) s i).1 = .ok t) :
    s.tournament? tid = some t := by
  simp only [authorize, tournament, bound, exec_bind, exec_cell] at h
  cases hw : Cell.writable [tid] with
  | error f => simp [hw] at h
  | ok u =>
    simp only [hw, exec_get] at h
    cases ht : s.tournament? tid with
    | none => simp [ht] at h
    | some t' =>
      simp only [ht, exec_pure] at h
      split at h
      · cases h
        rfl
      · split at h
        · cases h
        · cases h
          rfl

/-- A request runs through exactly when each part does, the second on what the first left. -/
theorem exec_bind_eq_ok {α β : Type} {x : Txn α} {f : α → Txn β} {s s' : Store}
    {i i' : Seed.Issued} {b : β} :
    exec (x >>= f) s i = (.ok b, s', i') ↔
      ∃ a s₁ i₁, exec x s i = (.ok a, s₁, i₁) ∧ exec (f a) s₁ i₁ = (.ok b, s', i') := by
  rw [exec_bind]
  rcases exec x s i with ⟨r, s₁, i₁⟩
  cases r with
  | error e => simp
  | ok a =>
    constructor
    · intro h
      exact ⟨a, s₁, i₁, rfl, h⟩
    · rintro ⟨a', s₂, i₂, ⟨⟩, h⟩
      exact h

theorem exec_refuseIf (c : Bool) (e : ServiceError) (s : Store) (i : Seed.Issued) :
    exec (refuseIf c e) s i = if c then (.error e, s, i) else (.ok (), s, i) := by
  cases c <;> rfl

theorem exec_refuseIf_eq_ok {c : Bool} {e : ServiceError} {s s' : Store} {i i' : Seed.Issued}
    {u : Unit} : exec (refuseIf c e) s i = (.ok u, s', i') ↔ c = false ∧ s' = s ∧ i' = i := by
  cases c <;> simp [exec_refuseIf, eq_comm]

@[simp] theorem exec_ofExcept {α : Type} (r : Except ServiceError α) (s : Store) (i : Seed.Issued) :
    exec (ofExcept r) s i = (r, s, i) := by
  cases r <;> rfl

@[simp] theorem exec_operand {α : Type} (r : Except OperandError α) (s : Store) (i : Seed.Issued) :
    exec (operand r) s i = (r.mapError .operand, s, i) := by
  cases r <;> rfl

@[simp] theorem exec_bound (texts : List String) (s : Store) (i : Seed.Issued) :
    exec (bound texts) s i = ((Cell.writable texts).mapError .cell, s, i) := by
  unfold bound
  cases Cell.writable texts <;> rfl

@[simp] theorem exec_readStored (b : StoredBracket) (s : Store) (i : Seed.Issued) :
    exec (readStored b) s i = (b.data.mapError .unreadable, s, i) :=
  exec_ofExcept _ s i

/-- Reading the fixtures of the stored competition changes nothing. -/
theorem exec_storedFixtures (tid : String) (age : Option String) (s : Store) (i : Seed.Issued) :
    exec (storedFixtures tid age) s i = ((match s.bracket? tid age with
      | some b => (b.data.mapError .unreadable).map (·.groups)
      | none => .ok []), s, i) := by
  unfold storedFixtures
  rw [exec_bind, exec_get]
  dsimp only
  cases s.bracket? tid age with
  | none => rfl
  | some b =>
    rw [exec_bind, exec_readStored]
    dsimp only
    cases b.data <;> rfl

/-- A value is taken as a count only when it is an integer or a truth value. -/
theorem exec_count_eq_ok {v : Value} {s s' : Store} {i i' : Seed.Issued} {n : Nat} :
    exec (count v) s i = (.ok n, s', i') ↔
      s' = s ∧ i' = i ∧ ((∃ k : Int, v = .int k ∧ n = k.toNat) ∨
        (∃ b : Bool, v = .bool b ∧ n = if b then 1 else 0)) := by
  cases v <;> simp [count, eq_comm, and_comm, and_assoc]

@[simp] theorem exec_freshDrawSeed (s : Store) (i : Seed.Issued) :
    exec freshDrawSeed s i = (.ok (Seed.draw (i.draw + 1)), s, { i with draw := i.draw + 1 }) :=
  rfl

@[simp] theorem exec_writeGroups (tid : String) (dealt : List (List String)) (s : Store)
    (i : Seed.Issued) :
    exec (writeGroups tid dealt) s i =
      (.ok (s.writeGroups tid dealt).1, (s.writeGroups tid dealt).2, i) :=
  rfl

end Txn

end TournamentDraw
