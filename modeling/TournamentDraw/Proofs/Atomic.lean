import TournamentDraw.Proofs.Frame

/-!
# Refused requests change nothing

A request to the draw and pot services writes the store as it goes, and a refusal does not by
itself undo what was written. Each request is built so that a refusal finds nothing to undo:
its writes stand inside a transaction (`Txn.atomically`), which puts the tables back when it is
refused, or come after its last check, where nothing refuses any more. A competition step runs
on a copy read afresh from the stored text, and only its outcome is written. A request built
so is clean (`Txn.Clean`): wherever it is refused, the tables are as it found them. Numbers
handed out on the way stay handed out.

Cleanness is shown block by block: a block that keeps the tables may come before a clean one
(`Txn.Moves.bind_clean`), a clean block may come before one that is never refused
(`Txn.Clean.bind_total`), and a transaction is clean whatever its block does
(`Txn.clean_atomically`).

Bulk pot assignment is the exception: it keeps every assignment on its own. A refusal leaves
what making the requests before the refused one, one at a time and in order, leaves.
-/

namespace TournamentDraw

theorem Store.tournaments_upsertPot (s : Store) (tid rid : String) (pot : Int) :
    (s.upsertPot tid rid pot).2.tables.tournaments = s.tables.tournaments := by
  unfold Store.upsertPot
  split <;> rfl

namespace Txn

/-- Putting a team into a pot is refused before it writes anything, or writes the pots and
leaves the tournaments. -/
theorem exec_putInPot (tid rid : String) (pot : Value) (s : Store) (i : Seed.Issued) :
    (∃ e, exec (putInPot tid rid pot) s i = (.error e, s, i)) ∨
    (∃ e s', exec (putInPot tid rid pot) s i = (.ok e, s', i) ∧
      s'.tables.tournaments = s.tables.tournaments) := by
  simp only [putInPot, bound, exec_bind, exec_cell]
  cases Cell.writable [rid] with
  | error f => exact .inl ⟨_, rfl⟩
  | ok u =>
    simp only [exec_get]
    cases s.registrationIn? tid rid with
    | none => exact .inl ⟨_, rfl⟩
    | some r =>
      dsimp only
      split
      · exact .inl ⟨_, rfl⟩
      · split
        · simp only [exec_bind, exec_get, exec_set, exec_pure]
          exact .inr ⟨_, _, rfl, s.tournaments_upsertPot tid rid _⟩
        · exact .inl ⟨_, rfl⟩

/-- Once its actor is allowed, a single pot assignment is its placement. -/
theorem exec_assignPot_of_allowed {tid rid : String} {pot : Value} {actor : Actor} {s : Store}
    {i : Seed.Issued} {t : Tournament} (h : (exec (authorize tid actor .managePots) s i).1 = .ok t) :
    exec (assignPot tid rid pot actor) s i = exec (putInPot tid rid pot) s i := by
  have ha : exec (authorize tid actor .managePots) s i = (.ok t, s, i) := by
    rw [exec_authorize, h]
  rw [assignPot, exec_bind_of_ok ha]

/-! ### Clean requests -/

/-- A request is clean when a refusal, wherever it comes, leaves the tables as the request found
them. -/
def Clean {α : Type} (t : Txn α) : Prop :=
  ∀ s i e s' i', exec t s i = (.error e, s', i') → s'.tables = s.tables

/-- A request that is never refused, on any store and seeds. -/
def Total {α : Type} (t : Txn α) : Prop :=
  ∀ s i, ∃ a, (exec t s i).1 = .ok a

section Clean

variable {α β : Type}

theorem total_pure (a : α) : Total (pure a : Txn α) := fun _ _ => ⟨a, rfl⟩

theorem total_get : Total (get : Txn Store) := fun s _ => ⟨s, rfl⟩

theorem total_set (s' : Store) : Total (set s' : Txn PUnit) := fun _ _ => ⟨⟨⟩, rfl⟩

theorem Total.bind {x : Txn α} {f : α → Txn β} (hx : Total x) (hf : ∀ a, Total (f a)) :
    Total (x >>= f) := by
  intro s i
  obtain ⟨a, ha⟩ := hx s i
  rcases hr : exec x s i with ⟨_ | a, s₁, i₁⟩ <;> rw [hr] at ha
  · cases ha
  · rw [exec_bind_of_ok hr]
    exact hf a s₁ i₁

/-- A request that keeps the tables is clean. -/
theorem Moves.clean {t : Txn α} (h : Keeps Store.tables t) : Clean t := by
  intro s i e s' i' he
  have hs := h s i
  rw [he] at hs
  exact hs

/-- A request that is never refused is clean. -/
theorem Total.clean {t : Txn α} (h : Total t) : Clean t := by
  intro s i e s' i' he
  obtain ⟨a, ha⟩ := h s i
  rw [he] at ha
  cases ha

/-- A write after the last check is clean. -/
theorem clean_write (f : Store → Store) (a : α) : Clean (do modify f; pure a : Txn α) :=
  Total.clean fun _ _ => ⟨a, rfl⟩

/-- A transaction is clean whatever its block does: a refusal puts the tables back. -/
theorem clean_atomically (t : Txn α) : Clean (atomically t) := by
  intro s i e s' i' he
  rw [exec_atomically] at he
  rcases hr : exec t s i with ⟨_ | a, s₁, i₁⟩ <;> rw [hr] at he <;> cases he
  rfl

/-- A block that keeps the tables, then a clean request, is clean. -/
theorem Moves.bind_clean {x : Txn α} {f : α → Txn β} (hx : Keeps Store.tables x)
    (hf : ∀ a, Clean (f a)) : Clean (x >>= f) := by
  intro s i e s' i' he
  have hs := hx s i
  rw [exec_bind] at he
  rcases hr : exec x s i with ⟨_ | a, s₁, i₁⟩ <;> rw [hr] at he hs
  · cases he
    exact hs
  · exact (hf a s₁ i₁ e s' i' he).trans hs

/-- A clean request, then one that is never refused, is clean. -/
theorem Clean.bind_total {x : Txn α} {f : α → Txn β} (hx : Clean x) (hf : ∀ a, Total (f a)) :
    Clean (x >>= f) := by
  intro s i e s' i' he
  rw [exec_bind] at he
  rcases hr : exec x s i with ⟨_ | a, s₁, i₁⟩ <;> rw [hr] at he
  · cases he
    exact hx s i _ _ _ hr
  · obtain ⟨b, hb⟩ := hf a s₁ i₁
    have he' : exec (f a) s₁ i₁ = (.error e, s', i') := he
    rw [he'] at hb
    cases hb

theorem Clean.discard {t : Txn α} (h : Clean t) : Clean (discard t) := by
  change Clean ((fun _ => PUnit.unit) <$> t)
  rw [map_eq_pure_bind]
  exact h.bind_total fun _ => total_pure _

/-- A guard of a `do` block: a refusal when the condition holds, else the join point after
it. -/
theorem clean_guard {c : Prop} [Decidable c] {err : ServiceError} {jp : PUnit → Txn α}
    (h : ∀ u, Clean (jp u)) : Clean (if c then refuse err >>= jp else jp ()) := by
  split
  · exact (moves_refuse err).bind_clean h
  · exact h ()

end Clean

/-! ### Every service is clean -/

theorem clean_moveTeams (tid : String) (actor : Actor) (moves : List Move) :
    Clean (moveTeams tid actor moves) := by
  unfold moveTeams
  exact (moves_authorize _ _ _).bind_clean fun _ =>
    (moves_mapM (moves_checkMove tid) _).bind_clean fun _ => clean_atomically _

theorem clean_resetDraw (tid : String) (actor : Actor) : Clean (resetDraw tid actor) :=
  (moves_authorize _ _ _).bind_clean fun _ => clean_atomically _

/-- A group is numbered and written after every check but the one of its display order, and
numbering it writes no table. -/
theorem clean_createGroup (tid : String) (actor : Actor) (letter : String)
    (teams : List String) (order : Value) : Clean (createGroup tid actor letter teams order) := by
  unfold createGroup
  exact (moves_authorize _ _ _).bind_clean fun _ => (moves_bound _).bind_clean fun _ =>
    moves_get.bind_clean fun _ => (moves_refuseIf _ _).bind_clean fun _ =>
    (moves_checkTeams _ _).bind_clean fun _ =>
    (moves_modifyGet fun _ => rfl).bind_clean fun _ =>
    (moves_cell _).bind_clean fun _ => clean_write _ _

theorem clean_updateGroup (tid gid : String) (actor : Actor) (teams : Option (List String))
    (letter : Option String) : Clean (updateGroup tid gid actor teams letter) := by
  unfold updateGroup
  exact (moves_authorize _ _ _).bind_clean fun _ => (moves_bound _).bind_clean fun _ =>
    moves_get.bind_clean fun _ => (moves_found _ _).bind_clean fun _ =>
    (moves_checkLetter _ _ _).bind_clean fun _ => (moves_checkNewTeams _ _).bind_clean fun _ =>
    clean_atomically _

theorem clean_generate (cfg : Value) (tid : String) (actor : Actor) (req : CompetitionRequest) :
    Clean (generate cfg tid actor req) := by
  unfold generate
  exact (moves_authorize _ _ _).bind_clean fun _ => moves_get.bind_clean fun _ =>
    (moves_formatOf _).bind_clean fun _ => (moves_givenOr _ _ _ _).bind_clean fun _ =>
    (moves_givenOr _ _ _ _).bind_clean fun _ => (moves_givenOr _ _ _ _).bind_clean fun _ =>
    (moves_competitionSeed _ _).bind_clean fun _ =>
    (moves_ite (moves_groupStage _ _ _ _ _ _) (moves_knockoutStage _ _ _ _ _ _)).bind_clean
      fun _ => (moves_bound _).bind_clean fun _ => clean_write _ _

/-- A step runs on a copy of the competition read from the store, and only the copy it
leaves is written, after it. -/
theorem clean_onMatch (tid : String) (age : Option String) (id : String) (st : Step Match) :
    Clean (onMatch tid age id st) := by
  unfold onMatch
  exact (moves_stored _ _).bind_clean fun _ => (moves_refuseIf _ _).bind_clean fun _ =>
    (moves_runStep _ _).bind_clean fun _ => clean_write _ _

theorem clean_recordScore (tid id : String) (actor : Actor) (r : Result) (age : Option String) :
    Clean (recordScore tid id actor r age) := by
  unfold recordScore
  -- the scores are checked in a loop that only refuses
  refine (moves_authorize _ _ _).bind_clean fun _ =>
    (moves_forIn (fun _ _ => ?_) _ _).bind_clean fun _ => clean_onMatch _ _ _ _
  exact moves_ite ((moves_operand _).bind fun _ =>
    moves_ite ((moves_refuse _).bind fun _ => moves_pure _) (moves_pure _)) (moves_pure _)

theorem clean_forceAdvance (tid id team : String) (actor : Actor) (age : Option String) :
    Clean (forceAdvance tid id team actor age) :=
  (moves_authorize _ _ _).bind_clean fun _ => clean_onMatch _ _ _ _

theorem clean_seedKnockout (tid : String) (actor : Actor) (age : Option String) :
    Clean (seedKnockout tid actor age) := by
  unfold seedKnockout
  refine (moves_authorize _ _ _).bind_clean fun _ => (moves_stored _ _).bind_clean fun _ =>
    clean_guard fun _ => clean_guard fun _ => clean_guard fun _ => ?_
  exact (moves_tables _ _).bind_clean fun _ =>
    (moves_mapM (fun _ => moves_operand _) _).bind_clean fun _ =>
    (moves_operand _).bind_clean fun _ => (moves_ofStep _).bind_clean fun _ =>
    (moves_runStep _ _).bind_clean fun _ => clean_write _ _

theorem clean_putInPot (tid rid : String) (pot : Value) : Clean (putInPot tid rid pot) := by
  intro s i e s' i' he
  rcases exec_putInPot tid rid pot s i with ⟨e₁, h⟩ | ⟨x, s₁, h, -⟩ <;> rw [h] at he <;> cases he
  rfl

theorem clean_clearPots (tid : String) (actor : Actor) : Clean (clearPots tid actor) := by
  unfold clearPots
  refine (moves_authorize _ _ _).bind_clean fun _ => Total.clean (total_get.bind fun s => ?_)
  exact (total_set _).bind fun _ => total_pure _

end Txn

/-! ### Every single request -/

/-- A request to the draw and pot services that runs as one transaction, with its
arguments. -/
inductive Request where
  | executeDraw (cfg : Value) (tid : String) (actor : Actor) (groups : Value)
      (seed : Option String)
  | moveTeams (tid : String) (actor : Actor) (moves : List Move)
  | resetDraw (tid : String) (actor : Actor)
  | createGroup (tid : String) (actor : Actor) (letter : String) (teams : List String)
      (order : Value)
  | updateGroup (tid gid : String) (actor : Actor) (teams : Option (List String))
      (letter : Option String)
  | generate (cfg : Value) (tid : String) (actor : Actor) (req : CompetitionRequest)
  | recordScore (tid id : String) (actor : Actor) (r : Result) (age : Option String)
  | forceAdvance (tid id team : String) (actor : Actor) (age : Option String)
  | seedKnockout (tid : String) (actor : Actor) (age : Option String)
  | assignPot (tid rid : String) (pot : Value) (actor : Actor)
  | clearPots (tid : String) (actor : Actor)
  | potDraw (tid : String) (groups : Value) (strict : Bool) (actor : Actor)

/-- The transaction a request runs, its answer set aside. -/
def Request.txn : Request → Txn Unit
  | .executeDraw cfg tid actor groups seed =>
    discard (Txn.executeDraw cfg tid actor groups seed)
  | .moveTeams tid actor moves => discard (Txn.moveTeams tid actor moves)
  | .resetDraw tid actor => Txn.resetDraw tid actor
  | .createGroup tid actor letter teams order =>
    discard (Txn.createGroup tid actor letter teams order)
  | .updateGroup tid gid actor teams letter => discard (Txn.updateGroup tid gid actor teams letter)
  | .generate cfg tid actor req => discard (Txn.generate cfg tid actor req)
  | .recordScore tid id actor r age => discard (Txn.recordScore tid id actor r age)
  | .forceAdvance tid id team actor age => discard (Txn.forceAdvance tid id team actor age)
  | .seedKnockout tid actor age => discard (Txn.seedKnockout tid actor age)
  | .assignPot tid rid pot actor => discard (Txn.assignPot tid rid pot actor)
  | .clearPots tid actor => discard (Txn.clearPots tid actor)
  | .potDraw tid groups strict actor => discard (Txn.potDraw tid groups strict actor)

/-- Every request is clean: wherever it is refused, it leaves the tables as it found them. -/
theorem Request.txn_clean : ∀ r : Request, Txn.Clean r.txn
  | .executeDraw .. => (Txn.clean_atomically _).discard
  | .moveTeams .. => (Txn.clean_moveTeams _ _ _).discard
  | .resetDraw .. => Txn.clean_resetDraw _ _
  | .createGroup .. => (Txn.clean_createGroup _ _ _ _ _).discard
  | .updateGroup .. => (Txn.clean_updateGroup _ _ _ _ _).discard
  | .generate .. => (Txn.clean_generate _ _ _ _).discard
  | .recordScore .. => (Txn.clean_recordScore _ _ _ _ _).discard
  | .forceAdvance .. => (Txn.clean_forceAdvance _ _ _ _ _).discard
  | .seedKnockout .. => (Txn.clean_seedKnockout _ _ _).discard
  | .assignPot .. =>
    ((Txn.moves_authorize _ _ _).bind_clean fun _ => Txn.clean_putInPot _ _ _).discard
  | .clearPots .. => (Txn.clean_clearPots _ _).discard
  | .potDraw .. => (Txn.clean_atomically _).discard

/-! ### Bulk pot assignment -/

/-- One pot request made as a request of its own: refused without both of its fields, else an
assignment of the team to the pot. -/
def Store.assignAlone (s : Store) (i : Seed.Issued) (tid : String) (actor : Actor)
    (q : PotRequest) : Except ServiceError PotEntry × Store × Seed.Issued :=
  match q.registration, q.pot with
  | none, _ => (.error (.missingField "registration_id"), s, i)
  | _, none => (.error (.missingField "pot_number"), s, i)
  | some rid, some pot => Txn.exec (Txn.assignPot tid rid pot actor) s i

/-- Pot requests made one at a time, in order, each as a request of its own on the store the
one before left, up to the first refused one. -/
def Store.assignInTurn (s : Store) (i : Seed.Issued) (tid : String) (actor : Actor) :
    List PotRequest → Except ServiceError (List PotEntry) × Store × Seed.Issued
  | [] => (.ok [], s, i)
  | q :: rest =>
    match s.assignAlone i tid actor q with
    | (.error e, s', i') => (.error e, s', i')
    | (.ok x, s', i') =>
      match s'.assignInTurn i' tid actor rest with
      | (.ok xs, s'', i'') => (.ok (x :: xs), s'', i'')
      | (.error e, s'', i'') => (.error e, s'', i'')

namespace Store

theorem foldl_assignPotStep_error (tid : String) (reqs : List PotRequest) (e : ServiceError)
    (s : Store) (i : Seed.Issued) :
    reqs.foldl (assignPotStep tid) (.error e, s, i) = (.error e, s, i) := by
  induction reqs with
  | nil => rfl
  | cons q rest ih => exact ih

/-- What a bulk assignment refused part-way leaves: the requests before some point, each made
on its own in turn, were accepted and left exactly this store, and the request at that point
is refused on its own. -/
def RefusedAt (tid : String) (actor : Actor) (s : Store) (i : Seed.Issued)
    (reqs : List PotRequest) (s' : Store) (i' : Seed.Issued) : Prop :=
  ∃ pre : List PotRequest, pre <+: reqs ∧
    (∃ xs, s.assignInTurn i tid actor pre = (.ok xs, s', i')) ∧
    ∀ q, reqs[pre.length]? = some q → ∃ e, (s'.assignAlone i' tid actor q).1 = .error e

/-- A bulk assignment that an allowed actor started and that is refused on the way is refused
at one of its requests. The tournaments stay as they were all along, so every request made on
its own is allowed as the bulk one was. -/
theorem foldl_assignPotStep_refused {tid : String} {actor : Actor} {s₀ : Store}
    {i₀ : Seed.Issued} {t : Tournament}
    (hauth : (Txn.exec (Txn.authorize tid actor .managePots) s₀ i₀).1 = .ok t)
    {e : ServiceError} {s' : Store} {i' : Seed.Issued} :
    ∀ (reqs : List PotRequest) (done : List PotEntry) (s : Store) (i : Seed.Issued),
      s.tables.tournaments = s₀.tables.tournaments →
      reqs.foldl (assignPotStep tid) (.ok done, s, i) = (.error e, s', i') →
      RefusedAt tid actor s i reqs s' i' := by
  intro reqs
  induction reqs with
  | nil =>
    intro done s i _ h
    cases h
  | cons q rest ih =>
    intro done s i hT h
    -- the authorization at this store answers as it did at the start
    have hallowed : (Txn.exec (Txn.authorize tid actor .managePots) s i).1 = .ok t := by
      rw [Txn.exec_authorize_of_tournaments hT tid actor _ i₀ i, hauth]
    -- a request refused here, before it wrote anything, is where the assignment stops
    have stop : (∃ e₁, (s.assignAlone i tid actor q).1 = .error e₁) →
        (s', i') = (s, i) → RefusedAt tid actor s i (q :: rest) s' i' := by
      rintro hq ⟨⟩
      refine ⟨[], List.nil_prefix, ⟨[], rfl⟩, ?_⟩
      rintro q' ⟨⟩
      exact hq
    rw [List.foldl_cons] at h
    obtain ⟨reg, pot⟩ := q
    cases reg with
    | none =>
      rw [assignPotStep, foldl_assignPotStep_error] at h
      cases h
      exact stop ⟨_, rfl⟩ rfl
    | some rid =>
      cases pot with
      | none =>
        rw [assignPotStep, foldl_assignPotStep_error] at h
        cases h
        exact stop ⟨_, rfl⟩ rfl
      | some pot =>
        have halone : s.assignAlone i tid actor ⟨some rid, some pot⟩ =
            Txn.exec (Txn.putInPot tid rid pot) s i :=
          Txn.exec_assignPot_of_allowed hallowed
        rcases Txn.exec_putInPot tid rid pot s i with ⟨e₁, he₁⟩ | ⟨x, s₁, hx, hT₁⟩
        · rw [assignPotStep] at h
          simp only [he₁, foldl_assignPotStep_error] at h
          cases h
          exact stop ⟨e, by rw [halone, he₁]⟩ rfl
        · rw [assignPotStep] at h
          simp only [hx] at h
          obtain ⟨pre, hpre, ⟨xs, hrun⟩, hnext⟩ := ih _ s₁ i (hT₁.trans hT) h
          refine ⟨⟨some rid, some pot⟩ :: pre, List.cons_prefix_cons.2 ⟨rfl, hpre⟩, ⟨x :: xs, ?_⟩,
            hnext⟩
          rw [assignInTurn, halone, hx]
          simp only [hrun]

/-- A refused bulk pot assignment is refused at one of its requests: it leaves exactly what
making the requests before that one, one at a time and in order, leaves, and that one is
refused on its own. An actor refused outright is refused at the first request. -/
theorem assignPots_refused {s s' : Store} {i i' : Seed.Issued} {tid : String} {actor : Actor}
    {reqs : List PotRequest} {e : ServiceError}
    (h : s.assignPots i tid actor reqs = (.error e, s', i')) :
    RefusedAt tid actor s i reqs s' i' := by
  unfold assignPots at h
  rw [Txn.exec_authorize] at h
  rcases hauth : (Txn.exec (Txn.authorize tid actor .managePots) s i).1 with e₁ | t
  · rw [hauth] at h
    cases h
    refine ⟨[], List.nil_prefix, ⟨[], rfl⟩, ?_⟩
    rintro ⟨reg, pot⟩ -
    cases reg with
    | none => exact ⟨_, rfl⟩
    | some rid =>
      cases pot with
      | none => exact ⟨_, rfl⟩
      | some pot =>
        refine ⟨e, ?_⟩
        have ha : Txn.exec (Txn.authorize tid actor .managePots) s i = (.error e, s, i) := by
          rw [Txn.exec_authorize, hauth]
        simp only [assignAlone, Txn.assignPot, Txn.exec_bind_of_error ha]
  · rw [hauth] at h
    exact foldl_assignPotStep_refused hauth reqs [] s i rfl h

end Store

/-- Refused requests change nothing. A request to the draw and pot services that is refused
leaves every table as it was, wherever it was refused. A refused bulk pot assignment leaves
exactly what making its requests before the refused one, one at a time and in order, leaves,
and the refused one is refused on its own. -/
theorem refused_requests_keep_tables :
    (∀ (r : Request) (s s' : Store) (i i' : Seed.Issued) (e : ServiceError),
      Txn.exec r.txn s i = (.error e, s', i') → s'.tables = s.tables) ∧
    (∀ (s s' : Store) (i i' : Seed.Issued) (tid : String) (actor : Actor)
      (reqs : List PotRequest) (e : ServiceError),
      s.assignPots i tid actor reqs = (.error e, s', i') →
      Store.RefusedAt tid actor s i reqs s' i') :=
  ⟨fun r s _ i _ _ h => r.txn_clean s i _ _ _ h,
    fun _ _ _ _ _ _ _ _ h => Store.assignPots_refused h⟩

end TournamentDraw
