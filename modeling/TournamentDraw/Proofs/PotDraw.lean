import TournamentDraw.Proofs.RandomDraw
import TournamentDraw.Proofs.PotDeal

/-!
# The pot draw

A pot draw reads, for each pot 1 to 4, the approved registrations potted in it
(`Store.approvedPots`), shuffles each pot with the tournament id and the pot number as its seed
and deals the four pots into the requested number of groups, by the snake draft or strictly.
Main statement: `pot_draw_deals_approved`, that a pot draw that went through leaves exactly
these groups, lettered `A, B, …`; that they hold every approved team once, with sizes that
differ by at most one; that full pots give every group one team of each pot; and that every
approved team holds its group's letter. It rests on the pot entries of a tournament naming
each registration once, as the store's unique key on them makes it, and on the approved pots
then holding exactly the approved teams, which the draw checks by counting.
-/

namespace TournamentDraw

namespace Draw

theorem length_potShuffle (tid : String) (pots : List (List String)) :
    (potShuffle tid pots).length = pots.length := by
  simp [potShuffle]

/-- Shuffling the pots keeps their members. -/
theorem flatten_potShuffle_perm (tid : String) (pots : List (List String)) :
    (potShuffle tid pots).flatten.Perm pots.flatten := by
  rw [potShuffle, ← List.flatMap_def]
  have hfst : pots.flatten = pots.zipIdx.flatMap Prod.fst := by
    rw [List.flatMap_def, List.zipIdx_map_fst]
  rw [hfst]
  refine List.Perm.flatMap_left _ fun x _ => ?_
  exact seededShuffle_perm x.1 _

/-- Every shuffled pot is a pot, shuffled, and every pot is shuffled into one. -/
theorem mem_potShuffle {tid : String} {pots : List (List String)} {ms' : List String} :
    ms' ∈ potShuffle tid pots ↔ ∃ ms ∈ pots, ∃ k, pots[k]? = some ms ∧
      ms' = seededShuffle ms s!"{tid}{k + 1}" := by
  simp only [potShuffle, List.mem_map, List.mem_zipIdx_iff_getElem?]
  constructor
  · rintro ⟨⟨ms, k⟩, hk, rfl⟩
    exact ⟨ms, List.mem_of_getElem? (by simpa using hk), k, by simpa using hk, rfl⟩
  · rintro ⟨ms, -, k, hk, rfl⟩
    exact ⟨(ms, k), by simpa using hk, rfl⟩

theorem exists_mem_potShuffle (tid : String) {pots : List (List String)} {ms : List String}
    (hms : ms ∈ pots) : ∃ ms' ∈ potShuffle tid pots, ms'.Perm ms := by
  obtain ⟨k, hk⟩ := List.mem_iff_getElem?.1 hms
  exact ⟨_, mem_potShuffle.2 ⟨ms, hms, k, hk, rfl⟩, seededShuffle_perm ms _⟩

/-- The shuffled pots are full exactly when the pots are. -/
theorem full_potShuffle_iff {tid : String} {pots : List (List String)} {n : Nat} :
    (∀ ms ∈ potShuffle tid pots, ms = [] ∨ ms.length = n) ↔ ∀ ms ∈ pots, ms = [] ∨ ms.length = n := by
  constructor
  · intro h ms hms
    obtain ⟨ms', hms', hperm⟩ := exists_mem_potShuffle tid hms
    rcases h ms' hms' with rfl | hlen
    · exact .inl hperm.nil_eq.symm
    · exact .inr (hperm.length_eq ▸ hlen)
  · intro h ms' hms'
    obtain ⟨ms, hms, k, -, rfl⟩ := mem_potShuffle.1 hms'
    have hperm := seededShuffle_perm ms s!"{tid}{k + 1}"
    rcases h ms hms with rfl | hlen
    · exact .inl (List.Perm.nil_eq hperm.symm).symm
    · exact .inr (hperm.length_eq.trans hlen)

end Draw

namespace Store

variable {s : Store} {tid : String}

/-- When the tournament's pot entries name each registration once, approved pots that hold as
many teams as are approved hold exactly the approved teams. -/
theorem approvedPots_perm (hpots : ((s.potsOf tid).map (·.registration)).Nodup)
    (hsum : ((s.approvedPots tid).map (·.length)).sum = (s.approvedOf tid).length) :
    (s.approvedPots tid).flatten.Perm ((s.approvedOf tid).map (·.id)) := by
  set E := (s.potsOf tid).filter fun e => (s.approvedOf tid).any (·.id == e.registration)
  have hE : (E.map (·.registration)).Nodup := (List.filter_sublist.map _).nodup hpots
  -- entries of different pots name different registrations
  have hnd : (s.approvedPots tid).flatten.Nodup := by
    rw [approvedPots, ← List.flatMap_def]
    refine List.nodup_flatMap.2 ⟨fun p _ => (List.filter_sublist.map _).nodup hE, ?_⟩
    refine List.Pairwise.imp (fun {p q} hpq => ?_) (by decide : [1, 2, 3, 4].Nodup)
    refine List.disjoint_left.2 fun {x} hx hx' => hpq ?_
    obtain ⟨e, he, rfl⟩ := List.mem_map.1 hx
    obtain ⟨e', he', hee'⟩ := List.mem_map.1 hx'
    rw [List.mem_filter] at he he'
    have hsame : e' = e := List.inj_on_of_nodup_map hE he'.1 he.1 hee'
    subst hsame
    have hp : e'.pot = p := by simpa using he.2
    have hq : e'.pot = q := by simpa using he'.2
    omega
  -- every potted team is an approved one
  have hsub : (s.approvedPots tid).flatten ⊆ (s.approvedOf tid).map (·.id) := by
    intro x hx
    rw [approvedPots, ← List.flatMap_def, List.mem_flatMap] at hx
    obtain ⟨p, -, hx⟩ := hx
    obtain ⟨e, he, rfl⟩ := List.mem_map.1 hx
    have happ := (List.mem_filter.1 (List.mem_filter.1 he).1).2
    obtain ⟨r, hr, hid⟩ := List.any_eq_true.1 happ
    exact List.mem_map.2 ⟨r, hr, by simpa using hid⟩
  refine (List.subperm_of_subset hnd hsub).perm_of_length_le ?_
  rw [List.length_flatten, hsum, List.length_map]

end Store

theorem Except.mapError_eq_ok {ε ε' α : Type} {f : ε → ε'} {r : Except ε α} {a : α} :
    r.mapError f = .ok a ↔ r = .ok a := by
  cases r <;> simp [Except.mapError]

namespace Txn

theorem pot_count_bounds {v : Value} {G most : Nat}
    (hv : (∃ k : Int, v = .int k ∧ G = k.toNat) ∨ (∃ b : Bool, v = .bool b ∧ G = if b then 1 else 0))
    (h₁ : (Value.relate .lt v (.int 2)).mapError ServiceError.operand = .ok false)
    (h₂ : (Value.relate .gt v (.int most)).mapError ServiceError.operand = .ok false) :
    2 ≤ G ∧ G ≤ most ∧ v = .int G := by
  rcases hv with ⟨k, rfl, rfl⟩ | ⟨b, rfl, rfl⟩
  · simp only [Value.relate_int, Except.mapError, Except.ok.injEq, Relation.holds] at h₁ h₂
    have hk₁ : ¬ k < 2 := by simpa [compare_lt_iff_lt] using h₁
    have hk₂ : ¬ k > most := by simpa [compare_gt_iff_gt] using h₂
    refine ⟨by omega, by omega, ?_⟩
    congr 1
    omega
  · simp only [Value.relate_bool_int, Except.mapError, Except.ok.injEq, Relation.holds] at h₁
    cases b <;> simp [compare_lt_iff_lt] at h₁

theorem exec_potDraw_eq_ok {tid : String} {groups : Value} {strict : Bool} {actor : Actor}
    {s s' : Store} {i i' : Seed.Issued} {saved : List Group}
    (h : exec (potDraw tid groups strict actor) s i = (.ok saved, s', i')) :
    ∃ (t : Tournament) (G : Nat), (exec (authorize tid actor .managePots) s i).1 = .ok t ∧
      t.drawCompleted = false ∧ groups = .int G ∧ 1 ≤ (s.approvedOf tid).length ∧ 2 ≤ G ∧
      G ≤ (s.approvedOf tid).length ∧ G ≤ 26 ∧
      (strict = true → (s.approvedOf tid).length % G = 0) ∧
      ((s.approvedPots tid).map (·.length)).sum = (s.approvedOf tid).length ∧
      ∃ dealt, Draw.distributePots strict (Draw.potShuffle tid (s.approvedPots tid)) G =
          .ok dealt ∧
        s' = s.afterDraw tid dealt (fun t => { t with drawCompleted := true }) := by
  rw [potDraw, exec_atomically_eq_ok] at h
  simp only [exec_bind_eq_ok, exec_refuseIf_eq_ok, exec_get, exec_ofExcept, exec_operand,
    exec_modify, exec_writeGroups, exec_pure, Prod.mk.injEq, Except.ok.injEq,
    exists_and_left, exists_eq_left, exists_eq_left', and_assoc, exec_authorize_eq_ok] at h
  obtain ⟨t, ht, hdone, hnone, -, -, b₁, hb₁, rfl, -, b₂, hb₂, rfl, hdiv, hassigned, -, -, -, G,
    s₁, i₁, hG, dealt, hdealt, -, -, -, hs', -, -, rfl⟩ := h
  obtain ⟨hs₁, hi₁, hv⟩ := exec_count_eq_ok.1 hG
  subst s₁ i₁
  obtain ⟨hG₂, hGmost, rfl⟩ := pot_count_bounds hv hb₁ hb₂
  refine ⟨t, G, ht, hdone, rfl, ?_, hG₂, by omega, by omega, ?_, ?_, dealt,
    Except.mapError_eq_ok.1 hdealt, hs'.symm⟩
  · simpa only [decide_eq_false_iff_not, Nat.one_le_iff_ne_zero] using hnone
  · -- strict mode checked that the groups divide the teams
    intro hstrict
    simp only [hstrict, divides, true_and, decide_eq_false_iff_not, Bool.not_eq_true'] at hdiv
    omega
  · simp only [decide_eq_false_iff_not, not_not] at hassigned
    exact hassigned
/-- Conversely, a pot draw that an allowed actor asks of a tournament not yet drawn, for a
number of groups between two and both the number of approved teams and 26, dividing the teams
in strict mode, with every approved team potted and a deal that goes through, goes through and
leaves that store. -/
theorem exec_potDraw_of {tid : String} {strict : Bool} {actor : Actor} {s : Store}
    {i : Seed.Issued} {t : Tournament} {G : Nat} {dealt : List (List String)}
    (ht : (exec (authorize tid actor .managePots) s i).1 = .ok t)
    (hdone : t.drawCompleted = false) (hn : 1 ≤ (s.approvedOf tid).length) (hG₂ : 2 ≤ G)
    (hGn : G ≤ (s.approvedOf tid).length) (hG₂₆ : G ≤ 26)
    (hdiv : strict = true → (s.approvedOf tid).length % G = 0)
    (hsum : ((s.approvedPots tid).map (·.length)).sum = (s.approvedOf tid).length)
    (hdeal : Draw.distributePots strict (Draw.potShuffle tid (s.approvedPots tid)) G = .ok dealt) :
    ∃ saved, exec (potDraw tid (.int G) strict actor) s i =
      (.ok saved, s.afterDraw tid dealt (fun t => { t with drawCompleted := true }), i) := by
  have hauth : exec (authorize tid actor .managePots) s i = (.ok t, s, i) :=
    exec_authorize_eq_ok.2 ⟨ht, rfl, rfl⟩
  have hsome : ¬ (s.approvedOf tid).length = 0 := by omega
  have hlow : Relation.holds .lt (compare (G : Int) 2) = false := by
    simp [Relation.holds, compare_lt_iff_lt]
    omega
  have hhigh : Relation.holds .gt (compare (G : Int) ((min (s.approvedOf tid).length 26 : Nat) : Int)) = false := by
    simp [Relation.holds, compare_gt_iff_gt]
    omega
  have hdivides : ¬ (strict = true ∧ (!divides (.int G) (s.approvedOf tid).length) = true) := by
    rintro ⟨hstrict, hnot⟩
    have := hdiv hstrict
    simp only [divides, Bool.not_eq_true', decide_eq_false_iff_not] at hnot
    omega
  have hsum' : ¬ ((s.approvedPots tid).map (·.length)).sum ≠ (s.approvedOf tid).length :=
    not_not.2 hsum
  have hcount : exec (count (.int (G : Int))) s i = (.ok G, s, i) := rfl
  apply Exists.intro
  simp only [potDraw, exec_atomically, exec_bind, hauth, exec_refuseIf, hdone, exec_get, Bool.false_eq_true, if_false,
    decide_eq_true_eq, hsome, exec_operand, Value.relate_int, hlow, hhigh, Except.mapError,
    hdivides, hsum', hcount, exec_ofExcept, hdeal, exec_modify, exec_writeGroups, exec_pure]
  rfl
end Txn

/-- A tournament's groups and letters as a pot draw leaves them, for the ids `A` of its approved
teams, its approved pots and `G` groups. -/
structure Store.PotDrawn (s : Store) (tid : String) (A : List String) (pots : List (List String))
    (strict : Bool) (G : Nat) : Prop where
  /-- `G` groups, lettered `A, B, …` and placed `1, …, G`, holding what the deal of the pots,
  each shuffled with the tournament id and its number, gives them. -/
  groups : ∃ dealt, Draw.distributePots strict (Draw.potShuffle tid pots) G = .ok dealt ∧
    dealt.length = G ∧ (s.groupsOf tid).map Group.shown =
      dealt.zipIdx.map fun x => (tid, Draw.groupLetter x.2, Value.int (x.2 + 1), x.1)
  /-- The groups hold every approved team once. -/
  partition : ((s.groupsOf tid).flatMap (·.teams)).Perm A
  /-- Group sizes differ by at most one. -/
  balanced : ∀ g₁ ∈ s.groupsOf tid, ∀ g₂ ∈ s.groupsOf tid, g₁.teams.length ≤ g₂.teams.length + 1
  /-- When every pot is empty or holds one team per group, every group holds exactly one team
  of each non-empty pot. -/
  onePerPot : (∀ ms ∈ pots, ms = [] ∨ ms.length = G) →
    ∀ g ∈ s.groupsOf tid, ∀ ms ∈ pots, ms ≠ [] → g.teams.countP (· ∈ ms) = 1
  /-- A strict draw gives group `k` the `k`-th team of every non-empty shuffled pot, in pot
  order. -/
  potOrder : strict = true → ∀ (k : Nat) (g : Group), (s.groupsOf tid)[k]? = some g →
    g.teams = (Draw.potShuffle tid pots).filterMap (·[k]?)
  /-- Every approved registration of the tournament holds its group's letter, and every other
  one holds none. -/
  letters : ∀ r ∈ s.tables.registrations, r.tournament = tid →
    (r.status = "APPROVED" → ∃ g ∈ s.groupsOf tid, r.id ∈ g.teams ∧ r.group = some g.letter) ∧
    (r.status ≠ "APPROVED" → r.group = none)

open Txn in
/-- **A pot draw partitions the approved teams and balances the pots.** When a pot draw of a
tournament goes through, the tournament was not yet drawn and had approved teams, the number of
groups `G` asked for is an integer between two and both the number of teams and 26, every
approved team is potted, and in strict mode `G` divides the teams and every non-empty pot holds
`G` teams. Afterwards the tournament holds the approved teams as `G` groups dealt from the
shuffled pots, by the snake draft or strictly, with sizes that differ by at most one; full pots
give every group one team of each pot, in pot order in strict mode; every approved registration
holds its group's letter; and the tournament is marked drawn, its seed kept. Registration ids
are taken to name one registration each, and the tournament's pot entries one registration
each, as the store's keys make them. -/
theorem pot_draw_deals_approved {tid : String} {groups : Value} {strict : Bool}
    {actor : Actor} {s s' : Store} {i i' : Seed.Issued} {saved : List Group}
    (hkeys : (s.tables.registrations.map (·.id)).Nodup)
    (hpots : ((s.potsOf tid).map (·.registration)).Nodup)
    (h : exec (potDraw tid groups strict actor) s i = (.ok saved, s', i')) :
    (∃ t, s.tournament? tid = some t ∧ t.drawCompleted = false) ∧
    ∃ G : Nat, groups = .int G ∧ 1 ≤ (s.approvedOf tid).length ∧ 2 ≤ G ∧
      G ≤ (s.approvedOf tid).length ∧ G ≤ 26 ∧
      (s.approvedPots tid).flatten.Perm ((s.approvedOf tid).map (·.id)) ∧
      (strict = true → (s.approvedOf tid).length % G = 0 ∧
        ∀ ms ∈ s.approvedPots tid, ms = [] ∨ ms.length = G) ∧
      s'.PotDrawn tid ((s.approvedOf tid).map (·.id)) (s.approvedPots tid) strict G ∧
      (s'.tournament? tid).map (fun t => (t.drawCompleted, t.drawSeed)) =
        (s.tournament? tid).map (fun t => (true, t.drawSeed)) := by
  obtain ⟨t, G, ht, hdone, rfl, hn, hG₂, hGn, hG₂₆, hdiv, hsum, dealt, hdeal, rfl⟩ :=
    exec_potDraw_eq_ok h
  set A := (s.approvedOf tid).map (·.id)
  set P := s.approvedPots tid
  set S := Draw.potShuffle tid P
  set drawn : Tournament → Tournament := fun t => { t with drawCompleted := true }
  have hG : 0 < G := by omega
  have hS4 : S.length = 4 := by
    rw [Draw.length_potShuffle]
    rfl
  -- the deal places every approved team once, and approved ids are distinct
  have hPA : P.flatten.Perm A := Store.approvedPots_perm hpots hsum
  have hSA : S.flatten.Perm A := (Draw.flatten_potShuffle_perm tid P).trans hPA
  have hdealt : dealt.flatten.Perm A := (Draw.flatten_distributePots_perm hS4 hG hdeal).trans hSA
  have hA : A.Nodup := Store.nodup_approvedOf hkeys
  have hD := @Store.dealt_afterDraw s tid dealt (hdealt.nodup_iff.2 hA) drawn
  have hperm : (((s.afterDraw tid dealt drawn).groupsOf tid).flatMap (·.teams)).Perm A := by
    rw [List.flatMap_def, hD.teams]
    exact hdealt
  have hmem : ∀ g ∈ (s.afterDraw tid dealt drawn).groupsOf tid, g.teams ∈ dealt := by
    intro g hg
    rw [← hD.teams]
    exact List.mem_map_of_mem hg
  obtain ⟨hlen, hstrict, -⟩ := Draw.distributePots_eq_ok hS4 hG hdeal
  refine ⟨⟨t, tournament?_of_authorize ht, hdone⟩, G, rfl, hn, hG₂, hGn, hG₂₆, hPA, ?strict,
    ⟨⟨dealt, hdeal, hlen, Store.groupsOf_afterDraw dealt _⟩, hperm, ?balanced, ?onePerPot,
      ?potOrder, ?letters⟩, ?flags⟩
  case strict =>
    intro hs
    exact ⟨hdiv hs, Draw.full_potShuffle_iff.1 (hstrict hs).1⟩
  case balanced =>
    intro g₁ hg₁ g₂ hg₂
    exact Draw.length_distributePots_le hS4 hG hdeal (hmem g₁ hg₁) (hmem g₂ hg₂)
  case onePerPot =>
    -- count in the shuffled pot, which has the same teams
    intro hfull g hg ms hms hne
    obtain ⟨ms', hms', hms'perm⟩ := Draw.exists_mem_potShuffle tid hms
    have hne' : ms' ≠ [] := by
      rintro rfl
      exact hne hms'perm.nil_eq.symm
    have hsame : g.teams.countP (· ∈ ms) = g.teams.countP (· ∈ ms') :=
      List.countP_congr fun x _ => by simp [hms'perm.mem_iff]
    rw [hsame]
    exact Draw.countP_distributePots hS4 hG hdeal (Draw.full_potShuffle_iff.2 hfull)
      (hSA.nodup_iff.2 hA) (hmem g hg) hms' hne'
  case potOrder =>
    intro hs k g hg
    have hk := congrArg (·[k]?) hD.teams
    simp only [List.getElem?_map, hg, Option.map_some] at hk
    rw [(hstrict hs).2, List.getElem?_map] at hk
    by_cases hkG : k < G
    · rw [List.getElem?_range hkG, Option.map_some, Option.some.injEq] at hk
      exact hk
    · rw [List.getElem?_eq_none (by simpa using hkG)] at hk
      cases hk
  case letters =>
    refine hD.letters ?_ ?_
    · rw [Store.ids_afterDraw]
      exact hkeys
    · rw [Store.approvedOf_afterDraw]
      exact hperm
  case flags =>
    rw [Store.tournament?_afterDraw (f := drawn) _ fun _ => rfl, Option.map_map]
    rfl

/-- The cup with both teams in the first pot. -/
def pottedCupStore : Store :=
  { cupStore with tables := { cupStore.tables with pots := [
      { id := "p1", tournament := "t1", registration := "r1", pot := 1, stamp := 3 },
      { id := "p2", tournament := "t1", registration := "r2", pot := 1, stamp := 4 }] } }

open Txn in
theorem pot_draw_two_teams :
    ∃ saved s' i', exec (potDraw "t1" (.int 2) false {}) pottedCupStore {} =
      (.ok saved, s', i') ∧
      ∃ G, s'.PotDrawn "t1" ["r1", "r2"] (pottedCupStore.approvedPots "t1") false G := by
  have happroved : pottedCupStore.approvedOf "t1" = pottedCupStore.tables.registrations := by
    rw [Store.approvedOf, Store.registrationsOf, List.mergeSort_of_pairwise (by decide)]
    rfl
  have hpotsOf : pottedCupStore.potsOf "t1" = pottedCupStore.tables.pots := by
    rw [Store.potsOf, List.mergeSort_of_pairwise (by decide)]
    rfl
  have hsum : ((pottedCupStore.approvedPots "t1").map (·.length)).sum =
      (pottedCupStore.approvedOf "t1").length := by
    rw [Store.approvedPots, hpotsOf, happroved]
    rfl
  obtain ⟨saved, h⟩ := @exec_potDraw_of "t1" false {} pottedCupStore {}
    { id := "t1", name := "Cup" } 2 _ rfl rfl (by rw [happroved]; decide) le_rfl
    (by rw [happroved]; decide) (by decide) (fun h => Bool.noConfusion h) hsum
    (Draw.distributeSnake_eq _ (by decide))
  obtain ⟨-, G, -, -, -, -, -, -, -, hdrawn, -⟩ :=
    pot_draw_deals_approved (by decide) (by rw [hpotsOf]; decide) h
  have hA : (pottedCupStore.approvedOf "t1").map (·.id) = ["r1", "r2"] := by
    rw [happroved]
    rfl
  exact ⟨saved, _, {}, h, G, hA ▸ hdrawn⟩

end TournamentDraw
