import TournamentDraw.Proofs.Transaction
import TournamentDraw.Service.Competition

/-!
# What a request may do to the store

What a request may do to the store is stated as a preorder on stores (`Txn.Effect`): doing
nothing is allowed, and so is doing two allowed things in turn. A request moves within an
effect (`Txn.Moves e t`) when, run as it goes on any store, it leaves a store the effect allows
from the one it found. Moving within an effect is closed under binding, under the join points,
branches and loops of a `do` block, so it is shown block by block: reading, refusing and
computing do nothing, and a change does what it writes.

The effect used most is keeping a part `f` of the store (`Txn.Keeps f t`). A transaction
(`Txn.atomically`) that is refused puts the tables back but keeps the numbers it handed out
(`moves_atomically`), so what it does then is what its block did to the counters.
-/

namespace TournamentDraw

namespace Txn

/-- What a request may do to the store: a preorder on stores, the store before first. -/
structure Effect where
  allows : Store → Store → Prop
  refl : ∀ s, allows s s
  trans : ∀ {a b c}, allows a b → allows b c → allows a c

/-- A request does no more than the effect allows: run as it goes, on any store and seeds, it
leaves a store that the effect allows from the one it found. -/
def Moves {α : Type} (e : Effect) (t : Txn α) : Prop :=
  ∀ s i, e.allows s (exec t s i).2.1

/-- Keeping a part `f` of the store. -/
def Effect.keeping {β : Type} (f : Store → β) : Effect where
  allows s s' := f s' = f s
  refl _ := rfl
  trans h₁ h₂ := h₂.trans h₁

@[simp] theorem Effect.keeping_allows {β : Type} (f : Store → β) (s s' : Store) :
    (Effect.keeping f).allows s s' ↔ f s' = f s := Iff.rfl

/-- A request keeps the part `f` of the store: run as it goes, on any store and seeds, it
leaves that part as it found it. -/
abbrev Keeps {α β : Type} (f : Store → β) (t : Txn α) : Prop :=
  Moves (Effect.keeping f) t

section Moves

variable {α β γ : Type} {e : Effect}

theorem Moves.bind {x : Txn α} {g : α → Txn γ} (hx : Moves e x) (hg : ∀ a, Moves e (g a)) :
    Moves e (x >>= g) := by
  intro s i
  rw [exec_bind]
  rcases hr : exec x s i with ⟨r, s', i'⟩
  have hs' := hx s i
  rw [hr] at hs'
  cases r with
  | ok a => exact e.trans hs' (hg a s' i')
  | error e => exact hs'

/-- Keeping a part of the store keeps every part of that part. -/
theorem Keeps.comp {β δ : Type} {f : Store → β} {t : Txn α} (g : β → δ) (h : Keeps f t) :
    Keeps (g ∘ f) t :=
  fun s i => congrArg g (h s i)

/-- A request that leaves the store as it found it does nothing. -/
theorem moves_of_stays {t : Txn α} (h : ∀ s i, (exec t s i).2.1 = s) : Moves e t := by
  intro s i
  rw [h]
  exact e.refl s

theorem moves_pure (a : α) : Moves e (pure a : Txn α) := moves_of_stays fun _ _ => rfl

theorem moves_get : Moves e (get : Txn Store) := moves_of_stays fun _ _ => rfl

theorem Moves.map {t : Txn α} (f : α → β) (h : Moves e t) : Moves e (f <$> t) := by
  rw [map_eq_pure_bind]
  exact h.bind fun _ => moves_pure _

theorem moves_refuse (err : ServiceError) : Moves e (refuse err : Txn α) :=
  moves_of_stays fun _ _ => rfl

theorem moves_refuseIf (c : Bool) (err : ServiceError) : Moves e (refuseIf c err) :=
  moves_of_stays fun s i => by
    rw [exec_refuseIf]
    split <;> rfl

theorem moves_ofExcept (r : Except ServiceError α) : Moves e (ofExcept r) :=
  moves_of_stays fun s i => by rw [exec_ofExcept]

theorem moves_operand (r : Except OperandError α) : Moves e (operand r) :=
  moves_of_stays fun s i => by rw [exec_operand]

theorem moves_bound (texts : List String) : Moves e (bound texts) :=
  moves_of_stays fun s i => by rw [exec_bound]

theorem moves_cell (r : Except CellFault α) : Moves e (cell r) :=
  moves_of_stays fun s i => by rw [exec_cell]

theorem moves_count (v : Value) : Moves e (count v) :=
  moves_of_stays fun s i => by cases v <;> rfl

theorem moves_freshDrawSeed : Moves e freshDrawSeed := moves_of_stays fun _ _ => rfl

theorem moves_freshCompetitionSeed : Moves e freshCompetitionSeed := moves_of_stays fun _ _ => rfl

theorem moves_settingOr (cfg : Value) (key : String) (d : Value) : Moves e (settingOr cfg key d) :=
  moves_of_stays fun s i => by
    unfold settingOr
    split <;> rfl

theorem moves_ofStep (r : Except BracketError α) : Moves e (ofStep r) :=
  moves_of_stays fun s i => by cases r <;> rfl

theorem moves_runStep (st : Step α) (b : Bracket) : Moves e (runStep st b) :=
  moves_of_stays fun s i => by
    unfold runStep
    split
    split <;> rfl

theorem moves_tournament (tid : String) : Moves e (tournament tid) :=
  moves_of_stays fun s i => by rw [exec_tournament_of_tournaments rfl tid i i]

theorem moves_authorize (tid : String) (actor : Actor) (act : Action) :
    Moves e (authorize tid actor act) :=
  moves_of_stays fun s i => by rw [exec_authorize]

theorem moves_modify {g : Store → Store} (h : ∀ s, e.allows s (g s)) :
    Moves e (modify g : Txn PUnit) := by
  intro s i
  rw [exec_modify]
  exact h s

@[simp] theorem exec_modifyGet (f : Store → α × Store) (s : Store) (i : Seed.Issued) :
    exec (modifyGet f : Txn α) s i = (.ok (f s).1, (f s).2, i) := rfl

theorem moves_modifyGet {f : Store → α × Store} (h : ∀ s, e.allows s (f s).2) :
    Moves e (modifyGet f : Txn α) := by
  intro s i
  rw [exec_modifyGet]
  exact h s

theorem moves_set {s' : Store} (h : ∀ s, e.allows s s') : Moves e (set s' : Txn PUnit) :=
  fun s _ => h s

theorem moves_ite {c : Prop} [Decidable c] {a b : Txn α} (ha : Moves e a) (hb : Moves e b) :
    Moves e (if c then a else b) := by
  split
  · exact ha
  · exact hb

/-- A guard of a `do` block: a refusal when the condition holds, else the join point after
it. The block moves within the effect when the join point does. -/
theorem moves_guard {c : Prop} [Decidable c] {err : ServiceError} {jp : PUnit → Txn α}
    (h : ∀ u, Moves e (jp u)) : Moves e (if c then refuse err >>= jp else jp ()) :=
  moves_ite ((moves_refuse err).bind h) (h ())

/-- A loop moves within the effect if its body does, at every element and loop state. -/
theorem moves_forIn {σ : Type} {body : α → σ → Txn (ForInStep σ)}
    (h : ∀ x b, Moves e (body x b)) : ∀ (xs : List α) (b : σ), Moves e (forIn xs b body)
  | [], b => moves_pure b
  | x :: xs, b => by
    rw [List.forIn_cons]
    refine (h x b).bind fun step => ?_
    cases step with
    | done b' => exact moves_pure b'
    | yield b' => exact moves_forIn h xs b'

theorem moves_forM {f : α → Txn PUnit} (h : ∀ x, Moves e (f x)) :
    ∀ xs : List α, Moves e (xs.forM f)
  | [] => moves_pure _
  | x :: xs => (h x).bind fun _ => moves_forM h xs

theorem moves_mapM {f : α → Txn β} (h : ∀ x, Moves e (f x)) :
    ∀ xs : List α, Moves e (xs.mapM f)
  | [] => moves_pure []
  | x :: xs => by
    rw [List.mapM_cons]
    exact (h x).bind fun _ => (moves_mapM h xs).bind fun _ => moves_pure _

theorem moves_foldlM {f : β → α → Txn β} (h : ∀ b x, Moves e (f b x)) :
    ∀ (xs : List α) (b : β), Moves e (xs.foldlM f b)
  | [], _ => moves_pure _
  | x :: xs, b => by
    rw [List.foldlM_cons]
    exact (h b x).bind fun b' => moves_foldlM h xs b'

theorem moves_stored (tid : String) (age : Option String) : Moves e (stored tid age) := by
  unfold stored
  refine (moves_bound _).bind fun _ => moves_get.bind fun s => ?_
  split
  · exact moves_ofExcept _
  · exact moves_refuse _

/-! ### The reading blocks of the services -/

theorem moves_found (o : Option α) (err : ServiceError) : Moves e (found o err) :=
  moves_of_stays fun _ _ => by cases o <;> rfl

theorem moves_checkMove (tid : String) (m : Move) : Moves e (checkMove tid m) := by
  unfold checkMove
  exact (moves_found _ _).bind fun _ => (moves_bound _).bind fun _ => moves_get.bind fun _ =>
    (moves_found _ _).bind fun _ => (moves_found _ _).bind fun _ =>
    (moves_refuseIf _ _).bind fun _ => moves_pure _

theorem moves_checkTeams (tid : String) (ids : List String) : Moves e (checkTeams tid ids) :=
  moves_forM (fun _ => (moves_bound _).bind fun _ => moves_get.bind fun _ => moves_refuseIf _ _)
    ids

theorem moves_checkLetter (tid : String) (g : Group) (letter : Option String) :
    Moves e (checkLetter tid g letter) := by
  unfold checkLetter
  split
  · refine moves_ite ?_ (moves_pure _)
    exact (moves_refuseIf _ _).bind fun _ => (moves_bound _).bind fun _ =>
      moves_get.bind fun _ => moves_refuseIf _ _
  · exact moves_pure _

theorem moves_checkNewTeams (tid : String) (teams : Option (List String)) :
    Moves e (checkNewTeams tid teams) := by
  unfold checkNewTeams
  split
  · exact (moves_refuseIf _ _).bind fun _ => moves_checkTeams _ _
  · exact moves_pure _

theorem moves_givenOr (cfg : Value) (v : Option Value) (key : String) (d : Value) :
    Moves e (givenOr cfg v key d) := by
  unfold givenOr
  split
  · exact moves_pure _
  · exact moves_settingOr _ _ _

theorem moves_formatOf (name : String) : Moves e (formatOf name) := by
  unfold formatOf
  split
  · exact moves_pure _
  · exact moves_refuse _

theorem moves_competitionSeed (req : CompetitionRequest) (t : Tournament) :
    Moves e (competitionSeed req t) :=
  moves_ite (moves_pure _) (moves_ite (moves_pure _) moves_freshCompetitionSeed)

theorem moves_groupStage (drawn : List Group) (fmt : Format) (req : CompetitionRequest)
    (advancing third : Value) (seed : String) :
    Moves e (groupStage drawn fmt req advancing third seed) := by
  unfold groupStage checkGroupCount
  refine (moves_refuseIf _ _).bind fun _ => Moves.bind ?_ fun _ =>
    (moves_ofStep _).bind fun _ => moves_pure _
  split
  · exact moves_refuseIf _ _
  · exact moves_pure _

theorem moves_knockoutStage (tid : String) (fmt : Format) (req : CompetitionRequest)
    (third legs : Value) (seed : String) :
    Moves e (knockoutStage tid fmt req third legs seed) := by
  unfold knockoutStage
  exact moves_get.bind fun _ => (moves_refuseIf _ _).bind fun _ =>
    (moves_ofStep _).bind fun _ => (moves_runStep _ _).bind fun _ => moves_pure _

theorem moves_storedFixtures (tid : String) (age : Option String) :
    Moves e (storedFixtures tid age) :=
  moves_of_stays fun s i => by rw [exec_storedFixtures]

theorem moves_tables (tid : String) (age : Option String) : Moves e (tables tid age) := by
  unfold tables
  exact (moves_tournament _).bind fun _ => (moves_bound _).bind fun _ =>
    (moves_storedFixtures _ _).bind fun _ => moves_get.bind fun _ =>
    moves_foldlM (fun _ _ => (moves_operand _).bind fun _ => moves_pure _) _ _

/-- A fold of changes, each of which the effect allows, does what the effect allows. -/
theorem Effect.foldl {γ δ : Type} (e : Effect) (v : γ → Store) {f : γ → δ → γ}
    (hf : ∀ c x, e.allows (v c) (v (f c x))) :
    ∀ (xs : List δ) (c : γ), e.allows (v c) (v (xs.foldl f c))
  | [], c => e.refl (v c)
  | x :: xs, c => e.trans (hf c x) (Effect.foldl e v hf xs (f c x))

/-- Writing drawn groups does what writing each group does. -/
theorem moves_writeGroups {tid : String}
    (h : ∀ acc x, e.allows acc.2 (Store.writeGroup tid acc x).2)
    (dealt : List (List String)) : Moves e (writeGroups tid dealt) := by
  intro s i
  rw [exec_writeGroups]
  exact e.foldl Prod.snd h dealt.zipIdx ([], s)

/-- A transaction puts the tables back when it is refused, keeping the numbers handed out: it
does what the effect allows when the effect allows that much of what its block did. -/
theorem moves_atomically {t : Txn α} (h : Moves e t)
    (hr : ∀ s s' : Store, e.allows s s' → e.allows s (s.rollback s')) :
    Moves e (atomically t) := by
  intro s i
  rw [exec_atomically]
  have hs := h s i
  rcases hexec : exec t s i with ⟨r, s', i'⟩
  rw [hexec] at hs
  cases r with
  | ok a => exact hs
  | error err => exact hr s s' hs

end Moves

end Txn

end TournamentDraw
