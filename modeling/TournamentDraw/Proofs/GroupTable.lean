import TournamentDraw.Proofs.Sorting
import TournamentDraw.Proofs.Layout
import TournamentDraw.Proofs.Places
import TournamentDraw.Proofs.Transaction
import TournamentDraw.Standings
import TournamentDraw.Proofs.JsonText

/-!
# Group tables

Counting a group's matches changes the tallies of its teams and never who they are, and the
sort by points only reorders them. So the table of a group that names each team once lists
each of its teams once, at the positions `1, 2, …` from the top (`groupTable_rows`). The
standings of a tournament are the tables of its groups in group order, each under its group's
letter, when no two groups share a letter (`exec_tables_eq_ok`).
-/

namespace TournamentDraw

namespace Value

theorem eqv_int (a b : Int) : (Value.int a).eqv (.int b) = decide (a = b) := by
  by_cases h : a = b <;> simp [h, eqv, numberCmp?, asExtended?, Extended.cmp]

theorem least_int (a b : Int) : (Value.int a).least (.int b) = .ok (.int (min a b)) := by
  simp only [least, relate_int, Relation.holds, bind, Except.bind]
  by_cases h : b < a
  · simp [h, compare_lt_iff_lt, min_eq_right (le_of_lt h)]
    rfl
  · simp [h, compare_lt_iff_lt, min_eq_left (not_lt.1 h)]
    rfl

theorem plus_int (a b : Int) : plus "+" (.int a) (.int b) = .ok (.int (a + b)) := by
  simp [plus, number?, Number.add, Number.toValue, Except.map]

/-- Integers add up to their sum. -/
theorem total_int (ns : List Int) : total (ns.map .int) = .ok (.int ns.sum) := by
  suffices h : ∀ c : Int,
      (ns.map Value.int).foldlM (plus "+") (.int c) = .ok (.int (c + ns.sum)) by
    simpa [total] using h 0
  induction ns with
  | nil => intro c; simp; rfl
  | cons n ns ih =>
    intro c
    rw [List.map_cons, List.foldlM_cons, plus_int]
    simp only [bind, Except.bind]
    rw [ih, List.sum_cons, Int.add_assoc]

end Value

theorem map_modify_eq {α β : Type} (l : List α) (i : Nat) {f : α → α} {g : α → β}
    (h : ∀ x, g (f x) = g x) : (l.modify i f).map g = l.map g := by
  apply List.ext_getElem
  · simp
  · intro n h1 h2
    simp only [List.getElem_map, List.getElem_modify]
    split <;> simp [h]

theorem map_set_eq {α β : Type} [Inhabited α] (l : List α) (i : Nat) {a : α} {g : α → β}
    (h : g a = g (l[i]?.getD default)) : (l.set i a).map g = l.map g := by
  rw [List.map_set]
  by_cases hi : i < l.length
  · rw [List.getElem?_eq_getElem hi, Option.getD_some] at h
    rw [h, ← List.getElem_map (f := g) (h := by simpa using hi), List.set_getElem_self]
  · rw [List.set_eq_of_length_le (by simpa using hi)]

/-- A map into pairs that keeps each item as the first part keeps the list as the first
parts. -/
theorem map_fst_of_mapM {α β ε : Type} {f : α → Except ε (α × β)}
    (hf : ∀ x y, f x = .ok y → y.1 = x) :
    ∀ {xs : List α} {ys : List (α × β)}, xs.mapM f = .ok ys → ys.map Prod.fst = xs
  | [], ys, h => by
    simp only [List.mapM_nil, pure, Except.pure, Except.ok.injEq] at h
    subst h
    rfl
  | x :: xs, ys, h => by
    cases hx : f x with
    | error e => simp [List.mapM_cons, hx, bind, Except.bind] at h
    | ok y =>
      cases hr : xs.mapM f with
      | error e => simp [List.mapM_cons, hx, hr, bind, Except.bind] at h
      | ok ys' =>
        simp only [List.mapM_cons, hx, hr, bind, Except.bind, pure, Except.pure,
          Except.ok.injEq] at h
        subst h
        rw [List.map_cons, hf x y hx, map_fst_of_mapM hf hr]

namespace Tally

theorem team_addGoals {t t' : Tally} {gf ga : Value} (h : t.addGoals gf ga = .ok t') :
    t'.team = t.team := by
  unfold addGoals at h
  simp only [bind, Except.bind, pure, Except.pure] at h
  split at h
  · cases h
  · split at h
    · cases h
    · cases h
      rfl

end Tally

/-- A match counted for the tallies at `ih` and `ia` changes their counts and nothing of who
they are. -/
theorem map_team_played (rows : List Tally) (ih ia : Nat) {v v₁ : Tally}
    (hv : v.team = (((rows.modify ih Tally.play).modify ia Tally.play)[ih]?.getD default).team)
    (hv₁ : v₁.team =
      ((((rows.modify ih Tally.play).modify ia Tally.play).set ih v)[ia]?.getD default).team)
    (o : Ordering) :
    ((((((rows.modify ih Tally.play).modify ia Tally.play).set ih v).set ia v₁).modify ih
      fun x => x.addOutcome o).modify ia fun x => x.addOutcome o.swap).map (·.team) =
      rows.map (·.team) := by
  have hout : ∀ (o : Ordering) (x : Tally), (x.addOutcome o).team = x.team := fun o x => by
    cases o <;> rfl
  rw [map_modify_eq _ _ (hout _), map_modify_eq _ _ (hout _), map_set_eq _ _ hv₁,
    map_set_eq _ _ hv, map_modify_eq _ _ (f := Tally.play) fun _ => rfl,
    map_modify_eq _ _ (f := Tally.play) fun _ => rfl]

/-- Counting a match keeps the teams of the tallies. -/
theorem map_team_countMatch {rows rows' : List Tally} {m : Match}
    (h : countMatch rows m = .ok rows') : rows'.map (·.team) = rows.map (·.team) := by
  unfold countMatch at h
  simp only [bind, Except.bind, pure, Except.pure] at h
  -- a match that does not count leaves the tallies; one that counts goes through both teams
  split at h
  · cases h
    rfl
  split at h
  · cases h
  split at h
  · split at h
    · cases h
    split at h
    · split at h
      · cases h
        rfl
      split at h
      · cases h
      next v hv =>
      split at h
      · cases h
      next v₁ hv₁ =>
      split at h
      · cases h
      split at h
      · cases h
      -- whatever the outcome, only the counts of the two tallies change
      split at h
      · cases h
        exact map_team_played _ _ _ (Tally.team_addGoals hv) (Tally.team_addGoals hv₁) _
      split at h
      · cases h
        exact map_team_played _ _ _ (Tally.team_addGoals hv) (Tally.team_addGoals hv₁) _
      · cases h
        exact map_team_played _ _ _ (Tally.team_addGoals hv) (Tally.team_addGoals hv₁) _
    · cases h
      rfl
  · cases h
    rfl

theorem map_team_foldlM_countMatch :
    ∀ {games : List Match} {rows rows' : List Tally}, games.foldlM countMatch rows = .ok rows' →
      rows'.map (·.team) = rows.map (·.team)
  | [], rows, rows', h => by
    simp only [List.foldlM_nil, pure, Except.pure, Except.ok.injEq] at h
    rw [h]
  | m :: games, rows, rows', h => by
    rw [List.foldlM_cons] at h
    cases hm : countMatch rows m with
    | error e => simp [hm, bind, Except.bind] at h
    | ok rows₁ =>
      simp only [hm, bind, Except.bind] at h
      rw [map_team_foldlM_countMatch h, map_team_countMatch hm]

/-- Distinct teams start a tally each, in their order. -/
theorem startTallies_strs {teams : List String} (h : teams.Nodup) :
    startTallies (teams.map .str) = .ok (teams.map fun t => ({ team := .str t } : Tally)) := by
  induction teams using List.reverseRecOn with
  | nil => rfl
  | append_singleton pre t ih =>
    have hpre : pre.Nodup := h.sublist (List.sublist_append_left pre [t])
    have ht : t ∉ pre := fun hm => by
      rw [List.nodup_append] at h
      exact h.2.2 t hm t List.mem_cons_self rfl
    unfold startTallies at ih ⊢
    rw [List.map_append, List.foldlM_append, ih hpre]
    simp [bind, Except.bind, pure, Except.pure, lookupKey, Value.eqv, ht]

/-- **The table of a group lists its teams.** Each team of a group that names each once has
one row, and the rows stand at positions `1, 2, …` from the top. -/
theorem groupTable_rows {teams : List String} (hnd : teams.Nodup) {games : List Match}
    {rows : List Standing} (h : groupTable (teams.map .str) games = .ok rows) :
    (rows.map (·.team)).Perm (teams.map .str) ∧
      ∀ i (hi : i < rows.length), rows[i].position = .int (i + 1) := by
  unfold groupTable at h
  simp only [startTallies_strs hnd, bind, Except.bind, pure, Except.pure] at h
  split at h
  · cases h
  next tallies hf =>
  split at h
  · cases h
  next keyed hk =>
  split at h
  · cases h
  next sorted hs =>
  cases h
  have hkeyed : keyed.map Prod.fst = tallies := map_fst_of_mapM (fun t y hy => by
    split at hy
    · cases hy
    · cases hy
      rfl) hk
  have hteams : tallies.map (·.team) = teams.map .str := by
    rw [map_team_foldlM_countMatch hf, List.map_map]
    rfl
  refine ⟨?_, fun i hi => ?_⟩
  · -- the rows are the sorted tallies, which are the counted ones reordered
    have hperm : sorted.reverse.Perm keyed :=
      (List.reverse_perm _).trans ((sortWith_perm hs).trans (List.reverse_perm _))
    have hrows : (sorted.reverse.zipIdx.map fun x : (Tally × Value) × Nat =>
        x.1.1.toStanding x.1.2 (x.2 + 1)).map (·.team) =
        sorted.reverse.map fun x => x.1.team := by
      calc _ = (sorted.reverse.zipIdx.map Prod.fst).map fun x => x.1.team := by
            rw [List.map_map, List.map_map]
            rfl
        _ = _ := by rw [List.zipIdx_map_fst]
    rw [hrows, ← hteams, ← hkeyed, List.map_map]
    exact hperm.map _
  · simp [Tally.toStanding]


namespace Txn

/-- Tables keyed by distinct letters are listed one per group, in turn. -/
theorem exec_foldlM_assocSet {T : Group → Except OperandError (List Standing)} :
    ∀ (gs : List Group) (acc res : List (String × List Standing)) {s s' : Store}
      {i i' : Seed.Issued}, (gs.map (·.letter)).Nodup →
      (∀ g ∈ gs, ∀ e ∈ acc, e.1 ≠ g.letter) →
      exec (gs.foldlM (fun acc g => do
          let rows ← operand (T g)
          return assocSet acc g.letter rows) acc) s i = (.ok res, s', i') →
      s' = s ∧ i' = i ∧ ∃ ts, res = acc ++ ts ∧
        List.Forall₂ (fun g e => e.1 = g.letter ∧ T g = .ok e.2) gs ts
  | [], acc, res, s, s', i, i', _, _, h => by
    simp only [List.foldlM_nil, exec_pure, Prod.mk.injEq, Except.ok.injEq] at h
    obtain ⟨rfl, rfl, rfl⟩ := h
    exact ⟨rfl, rfl, [], by simp, .nil⟩
  | g :: gs, acc, res, s, s', i, i', hnd, hfresh, h => by
    rw [List.foldlM_cons, exec_bind_eq_ok] at h
    obtain ⟨acc₁, s₁, i₁, hg, hrest⟩ := h
    rw [exec_bind_eq_ok] at hg
    obtain ⟨rows, s₂, i₂, hT, hret⟩ := hg
    rw [exec_operand] at hT
    simp only [exec_pure, Prod.mk.injEq] at hret
    obtain ⟨hacc, rfl, rfl⟩ := hret
    cases hTg : T g with
    | error e => simp [hTg, Except.mapError] at hT
    | ok rows' =>
      simp only [hTg, Except.mapError, Prod.mk.injEq, Except.ok.injEq] at hT
      obtain ⟨rfl, rfl, rfl⟩ := hT
      cases hacc
      have hnd' := List.nodup_cons.1 hnd
      rw [assocSet_of_not_mem (hfresh g List.mem_cons_self)] at hrest
      obtain ⟨rfl, rfl, ts, rfl, hts⟩ := exec_foldlM_assocSet gs _ res hnd'.2
        (fun g' hg' e he => by
          rcases List.mem_append.1 he with he | he
          · exact hfresh g' (List.mem_cons_of_mem g hg') e he
          · rw [List.mem_singleton.1 he]
            exact fun h' => hnd'.1 (List.mem_map.2 ⟨g', hg', h'.symm⟩)) hrest
      exact ⟨rfl, rfl, (g.letter, rows') :: ts, by simp, .cons ⟨rfl, hTg⟩ hts⟩

/-- **The standings are the tables of the groups.** When no two groups of a tournament share a
letter, its standings list one table per group in group order, under the group's letter,
each the table of the group's teams; asking for them changes nothing. -/
theorem exec_tables_eq_ok {s s' : Store} {tid : String} {age : Option String}
    {i i' : Seed.Issued} {standings : List (String × List Standing)}
    (hletters : ((s.groupsOf tid).map (·.letter)).Nodup)
    (h : exec (tables tid age) s i = (.ok standings, s', i')) :
    s' = s ∧ i' = i ∧ List.Forall₂ (fun g e => e.1 = g.letter ∧
      ∃ games, groupTable (g.teams.map .str) games = .ok e.2) (s.groupsOf tid) standings := by
  unfold tables at h
  rw [exec_bind_eq_ok] at h
  obtain ⟨t, s₁, i₁, ht, h⟩ := h
  rw [exec_tournament_of_tournaments rfl tid i i, Prod.mk.injEq, Prod.mk.injEq] at ht
  obtain ⟨-, rfl, rfl⟩ := ht
  rw [exec_bind_eq_ok] at h
  obtain ⟨u, s₂, i₂, hb, h⟩ := h
  rw [exec_bound] at hb
  simp only [Prod.mk.injEq] at hb
  obtain ⟨-, rfl, rfl⟩ := hb
  rw [exec_bind_eq_ok] at h
  obtain ⟨fixtures, s₅, i₅, hfx, h⟩ := h
  rw [exec_storedFixtures, Prod.mk.injEq, Prod.mk.injEq] at hfx
  obtain ⟨-, rfl, rfl⟩ := hfx
  rw [exec_bind_eq_ok] at h
  obtain ⟨s₃, s₄, i₄, hget, h⟩ := h
  rw [exec_get, Prod.mk.injEq, Prod.mk.injEq] at hget
  obtain ⟨hs₃, rfl, rfl⟩ := hget
  cases hs₃
  obtain ⟨rfl, rfl, ts, hts, hall⟩ := exec_foldlM_assocSet _ [] standings hletters
    (fun _ _ _ he => absurd he List.not_mem_nil) h
  refine ⟨rfl, rfl, ?_⟩
  rw [hts, List.nil_append]
  exact hall.imp fun {g e} he => ⟨he.1, _, he.2⟩

/-- Conversely, for a tournament that is found and a stored competition that reads, the
standings fold the group tables of the competition's fixtures over the groups in order. -/
theorem exec_tables_of {s : Store} {tid : String} {age : Option String} {i : Seed.Issued}
    {t : Tournament} {d : Bracket} (ht : (exec (tournament tid) s i).1 = .ok t)
    (hw : Cell.writable age.toList = .ok ())
    (hd : (s.bracket? tid age).map (·.data) = some (.ok d)) :
    exec (tables tid age) s i = exec ((s.groupsOf tid).foldlM (fun acc g => do
      let rows ← operand (groupTable (g.teams.map .str) ((d.groups.lookup g.letter).getD []))
      return assocSet acc g.letter rows) []) s i := by
  obtain ⟨row, hrow, hdata⟩ := Option.map_eq_some_iff.1 hd
  have htour : exec (tournament tid) s i = (.ok t, s, i) := by
    rw [exec_tournament_of_tournaments rfl tid i i, ht]
  have hbound : exec (bound age.toList) s i = (.ok (), s, i) := by
    rw [exec_bound, hw]
    rfl
  have hfixtures : exec (storedFixtures tid age) s i = (.ok d.groups, s, i) := by
    rw [exec_storedFixtures, hrow]
    dsimp only
    rw [hdata]
    rfl
  rw [tables, exec_bind_of_ok htour, exec_bind_of_ok hbound, exec_bind_of_ok hfixtures,
    exec_bind_of_ok (exec_get s i)]

end Txn

end TournamentDraw
