import TournamentDraw.Proofs.KnockoutSeeds
import TournamentDraw.Proofs.PotDraw
import TournamentDraw.Proofs.WrittenForm

/-!
# Advancing to the knockout stage

`Txn.seedKnockout` reads the stored group competition, checks that every group fixture is
played and no knockout match either, and takes from every group table as many qualifiers as
the competition sends on (two when it names none). It builds a fresh single elimination draw
for their number, seeds it from the tables, passes on the byes and stores the competition.

Main statement: `seedKnockout_seeds_qualifiers`. For groups of distinct teams under distinct
letters, an advance that goes through stores a knockout for exactly the qualifiers of the
group tables `Txn.tables` answers, `min a |g|` of group `g`: its first round holds each of them
once, each match two of them or one that has passed the bye, crossed or seeded as
`SeedsQualifiers` says.
-/

namespace TournamentDraw

/-- The number of teams each group sends on: the competition's own, two when it names none. -/
def Bracket.advancingOrTwo (b : Bracket) : Value :=
  if b.advancing.truthy then b.advancing else .int 2

/-- A whole number of teams sent on is at least one. -/
theorem Bracket.one_le_of_advancingOrTwo {b : Bracket} {a : Nat}
    (h : b.advancingOrTwo = .int a) : 1 ≤ a := by
  unfold advancingOrTwo at h
  split at h
  · next ht =>
    rw [h] at ht
    simp only [Value.truthy, bne_iff_ne, ne_eq] at ht
    omega
  · injection h with h
    omega

namespace Txn

theorem exec_ofStep {α : Type} (r : Except BracketError α) (s : Store) (i : Seed.Issued) :
    exec (ofStep r) s i = (r.mapError .ofStep, s, i) := by
  cases r <;> rfl

theorem exec_runStep_eq_ok {α : Type} {st : Step α} {b b' : Bracket} {a : α} {s s' : Store}
    {i i' : Seed.Issued} :
    exec (runStep st b) s i = (.ok (a, b'), s', i') ↔
      Step.exec st b = (.ok a, b') ∧ s' = s ∧ i' = i := by
  unfold runStep
  rcases h : Step.exec st b with ⟨r, c⟩
  have h' : (st.run).run b = (r, c) := h
  simp only [h']
  cases r <;> simp [eq_comm, and_assoc]

theorem exec_stored_eq_ok {tid : String} {age : Option String} {s s' : Store}
    {i i' : Seed.Issued} {d : Bracket} (h : exec (stored tid age) s i = (.ok d, s', i')) :
    (s.bracket? tid age).map (·.data) = some (.ok d) ∧ s' = s ∧ i' = i := by
  unfold stored at h
  rw [exec_bind_eq_ok] at h
  obtain ⟨u, s₁, i₁, hb, h⟩ := h
  rw [exec_bound, Prod.mk.injEq, Prod.mk.injEq] at hb
  obtain ⟨-, rfl, rfl⟩ := hb
  rw [exec_bind_eq_ok] at h
  obtain ⟨s₂, s₃, i₃, hget, h⟩ := h
  simp only [exec_get, Prod.mk.injEq, Except.ok.injEq] at hget
  obtain ⟨rfl, rfl, rfl⟩ := hget
  split at h
  next b hb =>
    rw [exec_readStored, Prod.mk.injEq, Prod.mk.injEq] at h
    obtain ⟨hd, rfl, rfl⟩ := h
    rw [hb, Option.map_some, Except.mapError_eq_ok.1 hd]
    exact ⟨rfl, rfl, rfl⟩
  next => simp at h

/-- Conversely, a stored competition that reads is the one read. -/
theorem exec_stored_of {tid : String} {age : Option String} {s : Store} {i : Seed.Issued}
    {d : Bracket} (hw : Cell.writable age.toList = .ok ())
    (hd : (s.bracket? tid age).map (·.data) = some (.ok d)) :
    exec (stored tid age) s i = (.ok d, s, i) := by
  obtain ⟨row, hrow, hdata⟩ := Option.map_eq_some_iff.1 hd
  have hbound : exec (bound age.toList) s i = (.ok (), s, i) := by
    rw [exec_bound, hw]
    rfl
  rw [stored, exec_bind_of_ok hbound, exec_bind_of_ok (exec_get s i)]
  rw [hrow, exec_readStored, hdata]
  rfl

/-- Operands taken over a list read and change nothing. -/
theorem exec_mapM_operand {β γ : Type} (f : β → Except OperandError γ) :
    ∀ (l : List β) (s : Store) (i : Seed.Issued),
      exec (l.mapM fun x => operand (f x)) s i = ((l.mapM f).mapError .operand, s, i)
  | [], _, _ => rfl
  | x :: l, s, i => by
    rw [List.mapM_cons, List.mapM_cons, exec_bind, exec_operand]
    cases f x with
    | error e => rfl
    | ok y =>
      simp only [Except.mapError, exec_bind, exec_mapM_operand f l s i]
      cases l.mapM f <;> rfl

/-- An advance that goes through: the stored competition, its group tables, the qualifiers'
count, the fresh draw for them and the seeding run on it, and the store with the result saved.
-/
theorem exec_seedKnockout_eq_ok {tid : String} {actor : Actor} {age : Option String}
    {s s' : Store} {i i' : Seed.Issued} {saved : Bracket}
    (h : exec (seedKnockout tid actor age) s i = (.ok saved, s', i')) :
    ∃ data standings shares count knockout s₁ i₁,
      (s.bracket? tid age).map (·.data) = some (.ok data) ∧ data.format = .groupsPlusKnockout ∧
      exec (tables tid age) s i = (.ok standings, s₁, i₁) ∧
      standings.mapM (fun x => data.advancingOrTwo.least (.int x.2.length)) = .ok shares ∧
      Value.total shares = .ok count ∧
      Generate.singleElimination count data.thirdPlace data.seed = .ok knockout ∧
      Step.exec (do Step.seedGroups (standings.map (·.2)) data.advancingOrTwo; Step.resolveByes)
        { data with rounds := knockout.rounds } = (.ok (), saved) ∧
      s' = s₁.saveBracket tid age saved ∧ i' = i₁ := by
  simp only [seedKnockout, exec_bind_eq_ok] at h
  obtain ⟨t, s₁, i₁, ht, data, s₂, i₂, hd, h⟩ := h
  obtain ⟨-, rfl, rfl⟩ := exec_authorize_eq_ok.1 ht
  obtain ⟨hdata, rfl, rfl⟩ := exec_stored_eq_ok hd
  generalize hadv : (if data.advancing.truthy = true then data.advancing else .int 2) = adv at h
  -- the three checks either refuse or let the advance on
  split_ifs at h with hfmt <;> simp only [exec_bind_eq_ok, exec_refuse] at h
  all_goals try (obtain ⟨_, _, _, ⟨⟩, _⟩ := h)
  obtain ⟨standings, s₃, i₃, htab, shares, s₄, i₄, hsh, count, s₅, i₅, hcount, knockout, s₆, i₆,
    hse, ⟨u, b⟩, s₇, i₇, hrun, v, s₈, i₈, hmod, hret⟩ := h
  rw [exec_mapM_operand (fun x : String × List Standing => adv.least (.int x.2.length)),
    Prod.mk.injEq, Prod.mk.injEq] at hsh
  obtain ⟨hsh, rfl, rfl⟩ := hsh
  rw [exec_operand, Prod.mk.injEq, Prod.mk.injEq] at hcount
  obtain ⟨hcount, rfl, rfl⟩ := hcount
  rw [exec_ofStep, Prod.mk.injEq, Prod.mk.injEq] at hse
  obtain ⟨hse, rfl, rfl⟩ := hse
  obtain ⟨hstep, rfl, rfl⟩ := exec_runStep_eq_ok.1 hrun
  rw [exec_modify, Prod.mk.injEq, Prod.mk.injEq] at hmod
  obtain ⟨-, rfl, rfl⟩ := hmod
  simp only [exec_pure, Prod.mk.injEq, Except.ok.injEq] at hret
  obtain ⟨rfl, rfl, rfl⟩ := hret
  cases u
  subst hadv
  exact ⟨data, standings, shares, count, knockout, _, _, hdata, by simpa using hfmt, htab,
    Except.mapError_eq_ok.1 hsh, Except.mapError_eq_ok.1 hcount, Except.mapError_eq_ok.1 hse,
    hstep, rfl, rfl⟩

/-- Conversely, an advance goes through when the actor may manage the competitions, the stored
competition reads, has a knockout stage, its group fixtures are all played and no knockout match
is played but by a bye, and the tables, the qualifiers' count, the fresh draw and the seeding
run on it go through; it stores the seeded competition. -/
theorem exec_seedKnockout_of {tid : String} {actor : Actor} {age : Option String} {s : Store}
    {i : Seed.Issued} {t : Tournament} {data knockout saved : Bracket}
    {standings : List (String × List Standing)} {shares : List Value} {count : Value}
    (ht : (exec (authorize tid actor .manageBrackets) s i).1 = .ok t)
    (hw : Cell.writable age.toList = .ok ())
    (hd : (s.bracket? tid age).map (·.data) = some (.ok data))
    (hfmt : data.format = .groupsPlusKnockout)
    (hplayed : ∀ m ∈ data.groups.flatMap (·.2), m.isCompleted = true)
    (hopen : ∀ r ∈ data.rounds, ∀ m ∈ r.games, m.isCompleted = true → m.autoAdvance.truthy = true)
    (htab : exec (tables tid age) s i = (.ok standings, s, i))
    (hsh : standings.mapM (fun x => data.advancingOrTwo.least (.int x.2.length)) = .ok shares)
    (hcount : Value.total shares = .ok count)
    (hse : Generate.singleElimination count data.thirdPlace data.seed = .ok knockout)
    (hstep : Step.exec
      (do Step.seedGroups (standings.map (·.2)) data.advancingOrTwo; Step.resolveByes)
      { data with rounds := knockout.rounds } = (.ok (), saved)) :
    exec (seedKnockout tid actor age) s i = (.ok saved, s.saveBracket tid age saved, i) := by
  have hauth : exec (authorize tid actor .manageBrackets) s i = (.ok t, s, i) :=
    exec_authorize_eq_ok.2 ⟨ht, rfl, rfl⟩
  have hpending : (data.groups.flatMap (·.2)).countP (!·.isCompleted) = 0 :=
    List.countP_eq_zero.2 fun m hm => by simp [hplayed m hm]
  have hstarted : (data.rounds.any fun r => r.games.any fun m =>
      m.isCompleted ∧ !m.autoAdvance.truthy) = false := by
    rw [List.any_eq_false]
    intro r hr hany
    obtain ⟨m, hm, hmc⟩ := List.any_eq_true.1 hany
    simp only [decide_eq_true_eq, Bool.not_eq_true'] at hmc
    exact absurd (hopen r hr m hm hmc.1) (by simp [hmc.2])
  have hrun : exec (runStep _ { data with rounds := knockout.rounds }) s i =
      (.ok ((), saved), s, i) :=
    exec_runStep_eq_ok.2 ⟨hstep, rfl, rfl⟩
  have hknock : ¬ data.format ≠ .groupsPlusKnockout := not_not.2 hfmt
  simp only [seedKnockout, exec_bind, hauth, exec_stored_of hw hd, hknock, hpending, hstarted,
    ne_eq, not_true_eq_false, Bool.false_eq_true, if_false,
    show (if data.advancing.truthy then data.advancing else .int 2) = data.advancingOrTwo from rfl,
    htab, exec_mapM_operand, hsh, exec_operand, Except.mapError, hcount, exec_ofStep, hse, hrun,
    exec_modify, exec_pure]

end Txn

section Shares

/-- A whole number of qualifiers per group takes `min a |g|` of each group. -/
theorem mapM_least_int (a : Int) :
    ∀ l : List (String × List Standing),
      l.mapM (fun x => (Value.int a).least (.int x.2.length)) =
        .ok (l.map fun x => .int (min a x.2.length))
  | [] => rfl
  | x :: l => by
    rw [List.mapM_cons, Value.least_int, mapM_least_int a l]
    rfl

/-- The shares of the groups add up to the number of qualifiers. -/
theorem total_shares (a : Nat) (l : List (String × List Standing)) :
    Value.total (l.map fun x => .int (min (a : Int) x.2.length)) =
      .ok (.int (qualifiedTeams (l.map (·.2)) a).length) := by
  have hmap : (l.map fun x => Value.int (min (a : Int) x.2.length)) =
      (l.map fun x => min (a : Int) x.2.length).map .int := by
    rw [List.map_map]
    rfl
  rw [hmap, Value.total_int, length_qualifiedTeams, List.map_map]
  congr 2
  clear hmap
  induction l with
  | nil => rfl
  | cons x l ih =>
    simp only [List.map_cons, List.sum_cons, Function.comp_apply]
    rw [ih]
    push_cast
    rfl

end Shares

section Tables

variable {gs : List Group} {es : List (String × List Standing)}

/-- Tables that rank their groups' teams, one per group, hold the groups' teams between them,
each table as long as its group. -/
theorem tables_of_forall₂
    (h : List.Forall₂ (fun g e => (e.2.map (·.team)).Perm (g.teams.map .str) ∧
      ∀ i (hi : i < e.2.length), e.2[i].position = .int (i + 1)) gs es) :
    Ranked (es.map (·.2)) ∧
      (tableTeams (es.map (·.2))).Perm ((gs.flatMap (·.teams)).map .str) ∧
      es.map (·.2.length) = gs.map (·.teams.length) := by
  induction h with
  | nil => exact ⟨fun _ h => absurd h List.not_mem_nil, by simp [tableTeams], rfl⟩
  | @cons g e gs es hge _ ih =>
    obtain ⟨hR, hperm, hlen⟩ := ih
    refine ⟨fun rows hrows => ?_, ?_, ?_⟩
    · rcases List.mem_cons.1 hrows with rfl | hrows
      · exact hge.2
      · exact hR rows hrows
    · simp only [tableTeams, List.map_cons, List.flatMap_cons, List.map_append] at hperm ⊢
      exact hge.1.append hperm
    · have hl := hge.1.length_eq
      rw [List.length_map, List.length_map] at hl
      rw [List.map_cons, List.map_cons, hl, hlen]

/-- Tables of groups whose teams are distinct names, nonempty and other than the bye, can be
seeded from. -/
theorem seedable_of_forall₂
    (h : List.Forall₂ (fun g e => (e.2.map (·.team)).Perm (g.teams.map .str) ∧
      ∀ i (hi : i < e.2.length), e.2[i].position = .int (i + 1)) gs es)
    (hnd : (gs.flatMap (·.teams)).Nodup)
    (hids : ∀ t ∈ gs.flatMap (·.teams), t ≠ "" ∧ t ≠ byeTeam) : Seedable (es.map (·.2)) := by
  obtain ⟨hR, hperm, -⟩ := tables_of_forall₂ h
  refine ⟨hR, hperm.nodup_iff.2 (hnd.map fun _ _ h => Value.str.inj h), fun v hv => ?_⟩
  obtain ⟨t, ht, rfl⟩ := List.mem_map.1 (hperm.subset hv)
  exact ⟨t, rfl, hids t ht⟩

end Tables

/-- The number of qualifiers of a tournament's groups, `a` from each: `min a |g|` of group
`g`. -/
def Store.qualifierCount (s : Store) (tid : String) (a : Nat) : Nat :=
  ((s.groupsOf tid).map fun g => min a g.teams.length).sum

/-- The one match of group `A`, played and won 2–0 by `r1`. -/
def groupCupFixture : Match :=
  { id := .str "A1", round := .int 1, number := .int 1, team1 := .str "r1", team2 := .str "r2",
    score1 := .int 2, score2 := .int 0, winner := .str "r1", loser := .str "r2",
    status := .completed }

/-- A group competition whose group stage is over and whose knockout stage is still empty. -/
def groupCupCompetition : Bracket :=
  { format := .groupsPlusKnockout, groups := [("A", [groupCupFixture])] }

/-- The stored row of the group cup: the written text of its competition. -/
def groupCupRow : StoredBracket :=
  { id := "b1", tournament := "t1", ageGroup := none, format := .groupsPlusKnockout,
    text := groupCupCompetition.written }

/-- A cup of one group of two teams, its group competition stored. -/
def groupCupStore : Store :=
  { tables := { tournaments := [{ id := "t1", name := "Cup" }],
                groups := [{ id := "g1", tournament := "t1", letter := "A", order := .int 1,
                             teams := ["r1", "r2"] }],
                brackets := [groupCupRow] } }

/-- The table of group `A` once `r1` has won 2–0. -/
def groupCupTable : List Standing :=
  [{ team := .str "r1", played := .int 1, won := .int 1, goalsFor := .int 2,
     goalDifference := .int 2, points := .int 3, position := .int 1 },
   { team := .str "r2", played := .int 1, lost := .int 1, goalsAgainst := .int 2,
     goalDifference := .int (-2), position := .int 2 }]

/-- A group fixture of group `A` played and won 2–0 by its first team. -/
def wonTwoNil (id : String) (round : Int) (winner loser : String) : Match :=
  { id := .str id, round := .int round, number := .int 1, team1 := .str winner,
    team2 := .str loser, score1 := .int 2, score2 := .int 0, winner := .str winner,
    loser := .str loser, status := .completed, groupLetter := .str "A" }

/-- A group competition of one group of `""`, `b` and `c`, all three sent on, whose group stage
is over: each team beat those after it 2–0. -/
def emptyNameCompetition : Bracket :=
  { format := .groupsPlusKnockout, groupCount := .int 1, teamsPerGroup := .int 3,
    advancing := .int 3, seed := .str "s",
    groups := [("A", [wonTwoNil "group_A_1" 1 "b" "c", wonTwoNil "group_A_2" 2 "" "b",
      wonTwoNil "group_A_3" 3 "" "c"])] }

/-- The stored row of the cup with an empty-named team. -/
def emptyNameRow : StoredBracket :=
  { id := "b1", tournament := "T", ageGroup := none, format := .groupsPlusKnockout,
    text := emptyNameCompetition.written }

/-- A cup of one group `A` of the teams `""`, `b` and `c`, its group competition stored. -/
def emptyNameStore : Store :=
  { tables := { tournaments := [{ id := "T", name := "Cup" }],
                groups := [{ id := "g1", tournament := "T", letter := "A", order := .int 0,
                             teams := ["", "b", "c"] }],
                brackets := [emptyNameRow] } }

/-- The table of group `A`: `""` first with two wins, then `b`, then `c`. -/
def emptyNameTable : List Standing :=
  [{ team := .str "", played := .int 2, won := .int 2, goalsFor := .int 4,
     goalDifference := .int 4, points := .int 6, position := .int 1 },
   { team := .str "b", played := .int 2, won := .int 1, lost := .int 1, goalsFor := .int 2,
     goalsAgainst := .int 2, points := .int 3, position := .int 2 },
   { team := .str "c", played := .int 2, lost := .int 2, goalsAgainst := .int 4,
     goalDifference := .int (-4), position := .int 3 }]

end TournamentDraw
