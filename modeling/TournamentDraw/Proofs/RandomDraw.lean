import TournamentDraw.Proofs.Drawn
import TournamentDraw.Proofs.Dealing
import TournamentDraw.Proofs.Layout

/-!
# The random draw

A random draw shuffles the ids of the tournament's approved teams, in registration order, with
its seed and deals them around `G` groups: group `k` gets the teams drawn at places `k`,
`k + G`, `k + 2G`, …. Main statement: `random_draw_deals_approved`, that a draw that went
through leaves exactly these groups, lettered `A, B, …`, every approved team lettered with its
group and no other team of the tournament lettered, the tournament marked drawn with its seed.
The groups are a function of the seed and the approved teams alone, so resetting the draw and
drawing again with the same seed gives them back.
-/

namespace TournamentDraw

/-- The seed a draw uses: the one given when it is a non-empty text, else the next draw
seed. -/
def Seed.forDraw (seed : Option String) (i : Seed.Issued) : String :=
  if named seed then seed.getD "" else Seed.draw (i.draw + 1)

theorem Seed.draw_ne_empty (n : Nat) : Seed.draw n ≠ "" := by
  unfold Seed.draw
  intro h
  have hlen := congrArg String.length h
  rw [String.length_append, String.length_empty] at hlen
  have hprefix : ("00000000-0000-4000-8000-" : String).length = 24 := by decide
  omega

/-- The seed a draw used is a non-empty text, so a draw given it uses it again. -/
theorem Seed.forDraw_forDraw (seed : Option String) (i j : Seed.Issued) :
    Seed.forDraw (some (Seed.forDraw seed i)) j = Seed.forDraw seed i := by
  have hnamed : named (some (Seed.forDraw seed i)) = true := by
    unfold Seed.forDraw
    split
    · rename_i h
      cases seed with
      | none => cases h
      | some σ => simpa [named] using h
    · simpa [named, String.isEmpty_eq_false_iff] using Seed.draw_ne_empty (i.draw + 1)
  rw [Seed.forDraw, if_pos hnamed]
  rfl

namespace Draw

/-- The number of groups a draw request asks for, with a configuration whose default group
size can be read: the number given (an integer, or a truth value counting as one), or else the
teams divided by the default group size, rounded up. -/
def Requested (cfg groups : Value) (teams G : Nat) : Prop :=
  ∃ size, setting cfg "default_group_size" (.int 4) = .ok size ∧
    ((groups.isNull = false ∧ (groups = .int G ∨ (groups = .bool true ∧ G = 1))) ∨
      (groups.isNull = true ∧ groupsFor teams size = .ok G))

/-- A request asks for one number of groups. -/
theorem Requested.unique {cfg groups : Value} {n G G' : Nat} (h : Requested cfg groups n G)
    (h' : Requested cfg groups n G') : G = G' := by
  obtain ⟨size, hs, hG⟩ := h
  obtain ⟨size', hs', hG'⟩ := h'
  obtain rfl : size = size' := Except.ok.inj (hs.symm.trans hs')
  rcases hG with ⟨hnull, rfl | ⟨rfl, rfl⟩⟩ | ⟨hnull, hg⟩ <;>
    rcases hG' with ⟨hnull', h | ⟨h, rfl⟩⟩ | ⟨hnull', hg'⟩ <;> simp_all

/-- A drawn order dealt around `G` groups, one team at a time. -/
def roundRobin {α : Type} (order : List α) (G : Nat) : List (List α) :=
  (List.range G).map (dealtTo order G)

theorem roundRobin_map {α β : Type} (f : α → β) (order : List α) (G : Nat) :
    roundRobin (order.map f) G = (List.range G).map fun k => (dealtTo order G k).map f := by
  unfold roundRobin
  congr 1
  funext k
  exact dealtTo_map f order G k

theorem zipIdx_roundRobin {α : Type} (order : List α) (G : Nat) :
    (roundRobin order G).zipIdx = (List.range G).map fun k => (dealtTo order G k, k) := by
  apply List.ext_getElem
  · simp [roundRobin]
  · intro k h₁ h₂
    simp [roundRobin]

/-- A round-robin deal around at least one group places every item once. -/
theorem flatten_roundRobin_perm {α : Type} (order : List α) {G : Nat} (hG : 0 < G) :
    (roundRobin order G).flatten.Perm order := by
  rw [roundRobin, ← List.flatMap_def]
  exact flatMap_dealtTo_perm order hG

/-- The groups of a round-robin deal differ in size by at most one, the larger ones first. -/
theorem length_roundRobin_le {α : Type} {order : List α} {G j k : Nat} {xs ys : List α}
    (hjk : j ≤ k) (hj : (roundRobin order G)[j]? = some xs)
    (hk : (roundRobin order G)[k]? = some ys) :
    ys.length ≤ xs.length ∧ xs.length ≤ ys.length + 1 := by
  have hkG : k < G := by simpa [roundRobin] using (List.getElem?_eq_some_iff.1 hk).1
  simp only [roundRobin, List.getElem?_map, List.getElem?_range (Nat.lt_of_le_of_lt hjk hkG),
    List.getElem?_range hkG, Option.map_some, Option.some.injEq] at hj hk
  rw [← hj, ← hk]
  exact length_dealtTo_le hjk hkG

end Draw

namespace Value

theorem relate_bool_int (r : Relation) (b : Bool) (n : Int) :
    relate r (.bool b) (.int n) = .ok (r.holds (compare (if b then 1 else 0) n)) := by
  cases b <;> simp [relate, isNumber, numberCmp?, asExtended?, Extended.cmp]

end Value

namespace Store

variable {s : Store} {tid : String}

/-- After a round-robin deal around `G` groups the tournament's groups are `A, B, …`, placed
`1, …, G`, group `k` holding the items drawn at places `k`, `k + G`, …. -/
theorem groupsOf_afterDraw_roundRobin (order : List String) (G : Nat)
    (f : Tournament → Tournament) :
    ((s.afterDraw tid (Draw.roundRobin order G) f).groupsOf tid).map Group.shown =
      (List.range G).map fun k =>
        (tid, Draw.groupLetter k, Value.int ((k : Int) + 1), Draw.dealtTo order G k) := by
  rw [groupsOf_afterDraw, Draw.zipIdx_roundRobin, List.map_map]
  rfl

end Store

namespace Txn

/-- A group count that is taken as a count and passes the bounds of a draw lies between one
and both the number of teams and 26, and is an integer or the truth value true. -/
theorem draw_count_bounds {v : Value} {G n : Nat}
    (hv : (∃ k : Int, v = .int k ∧ G = k.toNat) ∨ (∃ b : Bool, v = .bool b ∧ G = if b then 1 else 0))
    (h₁ : (Value.relate .gt v (.int n)).mapError ServiceError.operand = .ok false)
    (h₂ : (Value.relate .lt v (.int 1)).mapError ServiceError.operand = .ok false)
    (h₃ : (Value.relate .gt v (.int 26)).mapError ServiceError.operand = .ok false) :
    1 ≤ G ∧ G ≤ n ∧ G ≤ 26 ∧ (v = .int G ∨ (v = .bool true ∧ G = 1)) := by
  rcases hv with ⟨k, rfl, rfl⟩ | ⟨b, rfl, rfl⟩
  · simp only [Value.relate_int, Except.mapError, Except.ok.injEq, Relation.holds] at h₁ h₂ h₃
    have hk₁ : ¬ k > n := by simpa [compare_gt_iff_gt] using h₁
    have hk₂ : ¬ k < 1 := by simpa [compare_lt_iff_lt] using h₂
    have hk₃ : ¬ k > 26 := by simpa [compare_gt_iff_gt] using h₃
    refine ⟨by omega, by omega, by omega, .inl ?_⟩
    congr 1
    omega
  · simp only [Value.relate_bool_int, Except.mapError, Except.ok.injEq, Relation.holds] at h₁ h₂ h₃
    cases b
    · simp [compare_lt_iff_lt] at h₂
    · have hn : ¬ (1 : Int) > n := by simpa [compare_gt_iff_gt] using h₁
      simp only [if_true]
      refine ⟨le_refl 1, by omega, by omega, .inr ?_⟩
      simp

/-- Conversely, a count between one and both bounds passes the checks of a draw. -/
theorem draw_count_checks {v : Value} {G n : Nat} (h₁ : 1 ≤ G) (hn : G ≤ n) (h₂₆ : G ≤ 26)
    (hv : v = .int G ∨ (v = .bool true ∧ G = 1)) :
    (Value.relate .gt v (.int n)).mapError ServiceError.operand = .ok false ∧
      (Value.relate .lt v (.int 1)).mapError ServiceError.operand = .ok false ∧
      (Value.relate .gt v (.int 26)).mapError ServiceError.operand = .ok false ∧
      ∀ s i, exec (count v) s i = (.ok G, s, i) := by
  have hG : ¬ (G : Int) > n ∧ ¬ (G : Int) < 1 ∧ ¬ (G : Int) > 26 := by omega
  rcases hv with rfl | ⟨rfl, rfl⟩
  · simp [Value.relate_int, Except.mapError, Relation.holds, compare_gt_iff_gt,
      compare_lt_iff_lt, hG, count]
  · simp only [Nat.cast_one] at hG
    simp [Value.relate_bool_int, Except.mapError, Relation.holds, compare_gt_iff_gt, hG, count]

/-- A random draw that goes through was allowed, on a tournament not yet drawn and open, with
at least two approved teams and a number of groups it asked for between one and both the
number of teams and 26, and a seed the store can keep. It leaves the store with the shuffled
approved teams dealt around the groups and the tournament marked drawn with its seed. -/
theorem exec_executeDraw_eq_ok {cfg groups : Value} {tid : String} {actor : Actor}
    {seed : Option String} {s s' : Store} {i i' : Seed.Issued} {saved : List Group}
    (h : exec (executeDraw cfg tid actor groups seed) s i = (.ok saved, s', i')) :
    ∃ t G, (exec (authorize tid actor .executeDraw) s i).1 = .ok t ∧
      t.drawCompleted = false ∧ drawable t.status = true ∧
      2 ≤ (s.approvedOf tid).length ∧ 1 ≤ G ∧ G ≤ (s.approvedOf tid).length ∧ G ≤ 26 ∧
      Draw.Requested cfg groups (s.approvedOf tid).length G ∧
      Cell.writable [Seed.forDraw seed i] = .ok () ∧
      s' = s.afterDraw tid
        (Draw.roundRobin (Draw.seededShuffle ((s.approvedOf tid).map (·.id))
          (Seed.forDraw seed i)) G)
        (fun t => { t with drawCompleted := true, drawSeed := some (Seed.forDraw seed i) }) := by
  rw [executeDraw, exec_atomically_eq_ok] at h
  simp only [exec_bind_eq_ok, exec_refuseIf_eq_ok, exec_get, exec_ofExcept, exec_operand,
    exec_bound, exec_modify, exec_writeGroups, exec_pure, Prod.mk.injEq, Except.ok.injEq,
    exists_and_left, exists_eq_left, exists_eq_left', and_assoc, exec_authorize_eq_ok] at h
  obtain ⟨t, ht, hdone, hopen, hfew, -, -, -, size, hsize, wanted, s₁, i₁, hwanted, b₁, hb₁, rfl,
    -, b₂, hb₂, rfl, -, b₃, hb₃, rfl, -, σ, s₂, i₂, hσ, -, -, G, s₃, i₃, hG, u, hu, -, -, hs',
    -, -⟩ := h
  -- the group count asked for: the one given, or the teams over the default group size
  have hask : ((groups.isNull = false ∧ wanted = groups) ∨
      (groups.isNull = true ∧ ∃ g, groupsFor (s.approvedOf tid).length size = .ok g ∧
        wanted = .int g)) ∧ s = s₁ ∧ i = i₁ := by
    by_cases hnull : groups.isNull = true
    · simp only [hnull, Bool.not_true, Bool.false_eq_true, if_false, exec_ofExcept] at hwanted
      cases hg : groupsFor (s.approvedOf tid).length size with
      | error e => simp [hg, Except.map] at hwanted
      | ok g =>
        simp only [hg, Except.map, Prod.mk.injEq, Except.ok.injEq] at hwanted
        exact ⟨.inr ⟨hnull, g, rfl, hwanted.1.symm⟩, hwanted.2.1, hwanted.2.2⟩
    · simp only [Bool.not_eq_true] at hnull
      simp only [hnull, Bool.not_false, if_true, exec_pure, Prod.mk.injEq, Except.ok.injEq]
        at hwanted
      exact ⟨.inl ⟨hnull, hwanted.1.symm⟩, hwanted.2.1, hwanted.2.2⟩
  obtain ⟨hask, rfl, rfl⟩ := hask
  -- the seed: the one given when it names one, else a fresh one
  have hseed : σ = Seed.forDraw seed i ∧ s = s₂ := by
    unfold Seed.forDraw
    by_cases hn : named seed = true
    · simp only [hn, if_true, exec_pure, Prod.mk.injEq, Except.ok.injEq] at hσ ⊢
      exact ⟨hσ.1.symm, hσ.2.1⟩
    · simp only [hn, Bool.false_eq_true, if_false, exec_freshDrawSeed, Prod.mk.injEq,
        Except.ok.injEq] at hσ ⊢
      exact ⟨hσ.1.symm, hσ.2.1⟩
  obtain ⟨rfl, rfl⟩ := hseed
  obtain ⟨rfl, rfl, hv⟩ := exec_count_eq_ok.1 hG
  obtain ⟨hG₁, hGn, hG₂₆, hkind⟩ := draw_count_bounds hv hb₁ hb₂ hb₃
  refine ⟨t, G, ht, hdone, by simpa only [Bool.not_eq_false'] using hopen,
    by simpa only [decide_eq_false_iff_not, Nat.not_lt] using hfew, hG₁, hGn, hG₂₆,
    ⟨size, hsize, ?_⟩, ?_, ?_⟩
  · rcases hask with ⟨hnull, rfl⟩ | ⟨hnull, g, hg, rfl⟩
    · exact .inl ⟨hnull, hkind⟩
    · have hgG : g = G := by
        rcases hkind with h | ⟨h, -⟩ <;> cases h
        rfl
      exact .inr ⟨hnull, by rw [hg, hgG]⟩
  · cases hw : Cell.writable [Seed.forDraw seed i] with
    | error f => simp [hw, Except.mapError] at hu
    | ok v => rfl
  · -- shuffling the teams and taking their ids is shuffling their ids
    rw [← hs', Draw.seededShuffle_map, Draw.roundRobin_map]
    rfl

/-- Conversely, a random draw that an allowed actor asks of a tournament not yet drawn and open,
with at least two approved teams, a number of groups it asks for between one and both the
number of teams and 26, and a seed the store can keep, goes through and leaves that store. -/
theorem exec_executeDraw_of {cfg groups : Value} {tid : String} {actor : Actor}
    {seed : Option String} {s : Store} {i : Seed.Issued} {t : Tournament} {G : Nat}
    (ht : (exec (authorize tid actor .executeDraw) s i).1 = .ok t)
    (hdone : t.drawCompleted = false) (hopen : drawable t.status = true)
    (hfew : 2 ≤ (s.approvedOf tid).length) (hG₁ : 1 ≤ G) (hGn : G ≤ (s.approvedOf tid).length)
    (hG₂₆ : G ≤ 26) (hreq : Draw.Requested cfg groups (s.approvedOf tid).length G)
    (hw : Cell.writable [Seed.forDraw seed i] = .ok ()) :
    ∃ saved i', exec (executeDraw cfg tid actor groups seed) s i = (.ok saved, s.afterDraw tid
        (Draw.roundRobin (Draw.seededShuffle ((s.approvedOf tid).map (·.id))
          (Seed.forDraw seed i)) G)
        (fun t => { t with drawCompleted := true, drawSeed := some (Seed.forDraw seed i) }),
        i') := by
  obtain ⟨size, hsize, hask⟩ := hreq
  have hauth : exec (authorize tid actor .executeDraw) s i = (.ok t, s, i) :=
    exec_authorize_eq_ok.2 ⟨ht, rfl, rfl⟩
  -- the value the count is read from
  obtain ⟨wanted, hwanted, hv⟩ : ∃ wanted, exec (if !groups.isNull then pure groups
      else ofExcept ((groupsFor (s.approvedOf tid).length size).map Value.int) : Txn Value) s i =
        (.ok wanted, s, i) ∧ (wanted = .int G ∨ (wanted = .bool true ∧ G = 1)) := by
    rcases hask with ⟨hnull, hv⟩ | ⟨hnull, hg⟩
    · exact ⟨groups, by simp [hnull], hv⟩
    · exact ⟨.int G, by simp [hnull, hg, Except.map], .inl rfl⟩
  obtain ⟨hb₁, hb₂, hb₃, hcount⟩ := draw_count_checks hG₁ hGn hG₂₆ hv
  -- the seed: the one given when it names one, else a fresh one
  obtain ⟨i₁, hσ⟩ : ∃ i₁, exec (if named seed then pure (seed.getD "") else freshDrawSeed) s i =
      (.ok (Seed.forDraw seed i), s, i₁) := by
    unfold Seed.forDraw
    by_cases hn : named seed = true <;> simp [hn]
  apply Exists.intro
  refine ⟨i₁, ?_⟩
  have hmany : ¬ (s.approvedOf tid).length < 2 := by omega
  have hkept : (Cell.writable [Seed.forDraw seed i]).mapError ServiceError.cell = .ok () := by
    rw [hw]
    rfl
  simp only [executeDraw, exec_atomically, exec_bind, hauth, exec_refuseIf, hdone, hopen, exec_get, Bool.not_true,
    Bool.false_eq_true, if_false, decide_eq_true_eq, hmany, exec_ofExcept, hsize, hwanted,
    exec_operand, hb₁, hb₂, hb₃, hσ, exec_modify, hcount, exec_bound, hkept,
    exec_writeGroups, exec_pure]
  rw [Draw.seededShuffle_map, Draw.roundRobin_map]
  rfl

/-- Resetting a draw that goes through deletes the tournament's groups, takes its teams' letters
away and marks it not drawn, with no seed: the store a draw of no groups leaves. -/
theorem exec_resetDraw_eq_ok {tid : String} {actor : Actor} {s s' : Store} {i i' : Seed.Issued}
    {u : Unit} (h : exec (resetDraw tid actor) s i = (.ok u, s', i')) :
    (∃ t, (exec (authorize tid actor .resetDraw) s i).1 = .ok t) ∧ i' = i ∧
      s' = s.afterDraw tid [] fun t => { t with drawCompleted := false, drawSeed := none } := by
  simp only [resetDraw, exec_bind_eq_ok, exec_authorize_eq_ok, exec_atomically_eq_ok, exec_modify,
    Prod.mk.injEq] at h
  obtain ⟨t, s₁, i₁, ⟨ht, rfl, rfl⟩, -, rfl, rfl⟩ := h
  exact ⟨⟨t, ht⟩, rfl, rfl⟩

/-- Resetting a draw and drawing again with the seed it used, by the same actor with the same
configuration and number of groups, goes through and deals the same groups. -/
theorem redraw_same_groups {cfg groups : Value} {tid : String} {actor actor' : Actor}
    {seed : Option String} {s s' s₂ : Store} {i i' i₂ : Seed.Issued} {saved : List Group}
    {u : Unit} (h : exec (executeDraw cfg tid actor groups seed) s i = (.ok saved, s', i'))
    (hr : exec (resetDraw tid actor') s' i' = (.ok u, s₂, i₂)) :
    ∃ saved₃ s₃ i₃,
      exec (executeDraw cfg tid actor groups (some (Seed.forDraw seed i))) s₂ i₂ =
        (.ok saved₃, s₃, i₃) ∧
      (s₃.groupsOf tid).map Group.shown = (s'.groupsOf tid).map Group.shown := by
  obtain ⟨t, G, ht, hdone, hopen, hfew, hG₁, hGn, hG₂₆, hreq, hw, rfl⟩ := exec_executeDraw_eq_ok h
  obtain ⟨-, -, rfl⟩ := exec_resetDraw_eq_ok hr
  set σ := Seed.forDraw seed i
  set dealt := Draw.roundRobin (Draw.seededShuffle ((s.approvedOf tid).map (·.id)) σ) G
  set drawn : Tournament → Tournament :=
    fun t => { t with drawCompleted := true, drawSeed := some σ }
  set reset : Tournament → Tournament :=
    fun t => { t with drawCompleted := false, drawSeed := none }
  -- the reset store keeps the approved teams in order, and the tournament but for its flags
  have happ : (((s.afterDraw tid dealt drawn).afterDraw tid [] reset).approvedOf tid).map (·.id) =
      (s.approvedOf tid).map (·.id) := by
    rw [Store.approvedOf_afterDraw, Store.approvedOf_afterDraw]
  have hlen := congrArg List.length happ
  rw [List.length_map, List.length_map] at hlen
  have htour : ((s.afterDraw tid dealt drawn).afterDraw tid [] reset).tournament? tid =
      (s.tournament? tid).map (reset ∘ drawn) := by
    rw [Store.tournament?_afterDraw (f := reset) _ fun _ => rfl,
      Store.tournament?_afterDraw (f := drawn) _ fun _ => rfl, Option.map_map]
  have hauth := authorize_of_tournament? htour (fun _ => rfl) actor .executeDraw i i₂
  rw [ht] at hauth
  have hσ : Seed.forDraw (some σ) i₂ = σ := Seed.forDraw_forDraw seed i i₂
  obtain ⟨saved₃, i₃, h₃⟩ := exec_executeDraw_of hauth rfl hopen (hlen ▸ hfew) hG₁ (hlen ▸ hGn)
    hG₂₆ (hlen ▸ hreq) (hσ ▸ hw)
  refine ⟨saved₃, _, i₃, h₃, ?_⟩
  rw [hσ, happ, Store.groupsOf_afterDraw_roundRobin, Store.groupsOf_afterDraw_roundRobin]

end Txn

/-- A tournament's groups and letters as a random draw leaves them, for the ids `A` of its
approved teams in registration order, the seed `σ` and `G` groups. -/
structure Store.RandomlyDrawn (s : Store) (tid : String) (A : List String) (σ : String) (G : Nat) :
    Prop where
  /-- Exactly `G` groups, lettered `A, B, …` and placed `1, …, G`; group `k` holds the teams
  drawn at places `k`, `k + G`, … of the shuffle of `A` by `σ`. -/
  groups : (s.groupsOf tid).map Group.shown = (List.range G).map fun k =>
    (tid, Draw.groupLetter k, Value.int ((k : Int) + 1), Draw.dealtTo (Draw.seededShuffle A σ) G k)
  /-- The groups hold every approved team once. -/
  partition : ((s.groupsOf tid).flatMap (·.teams)).Perm A
  /-- Group sizes differ by at most one, larger groups first. -/
  balanced : ∀ (j k : Nat) (gj gk : Group), j ≤ k → (s.groupsOf tid)[j]? = some gj →
    (s.groupsOf tid)[k]? = some gk →
      gk.teams.length ≤ gj.teams.length ∧ gj.teams.length ≤ gk.teams.length + 1
  /-- Every approved registration of the tournament holds its group's letter, and every other
  one holds none. -/
  letters : ∀ r ∈ s.tables.registrations, r.tournament = tid →
    (r.status = "APPROVED" → ∃ g ∈ s.groupsOf tid, r.id ∈ g.teams ∧ r.group = some g.letter) ∧
    (r.status ≠ "APPROVED" → r.group = none)
  /-- The tournament is marked drawn with the seed. -/
  flags : (s.tournament? tid).map (fun t => (t.drawCompleted, t.drawSeed)) = some (true, some σ)

open Txn in
/-- **A random draw partitions the approved teams.** When a random draw of a tournament goes
through, the tournament was not yet drawn, was published or ongoing, and had at least two
approved teams, and the number of groups `G` asked for (given, or the teams over the default
group size) lies between one and both the number of teams and 26. Afterwards the tournament
holds the approved teams as `G` groups dealt in turn from their shuffle by the draw's seed (the
given one or a fresh one), each approved registration holding its group's letter, and is marked
drawn with the seed. The groups are a function of the seed and the approved teams in
registration order: resetting the draw and drawing again with the seed goes through and deals
the same groups. Registration ids are taken to name one registration each, as the store's key.
-/
theorem random_draw_deals_approved {cfg groups : Value} {tid : String} {actor : Actor}
    {seed : Option String} {s s' : Store} {i i' : Seed.Issued} {saved : List Group}
    (hkeys : (s.tables.registrations.map (·.id)).Nodup)
    (h : exec (executeDraw cfg tid actor groups seed) s i = (.ok saved, s', i')) :
    (∃ t, s.tournament? tid = some t ∧ t.drawCompleted = false ∧
      (t.status = "PUBLISHED" ∨ t.status = "ONGOING")) ∧
    ∃ G, 2 ≤ (s.approvedOf tid).length ∧ 1 ≤ G ∧ G ≤ (s.approvedOf tid).length ∧ G ≤ 26 ∧
      Draw.Requested cfg groups (s.approvedOf tid).length G ∧
      s'.RandomlyDrawn tid ((s.approvedOf tid).map (·.id)) (Seed.forDraw seed i) G ∧
      ∀ actor' u s₂ i₂, exec (resetDraw tid actor') s' i' = (.ok u, s₂, i₂) →
        ∃ saved₂ s₃ i₃,
          exec (executeDraw cfg tid actor groups (some (Seed.forDraw seed i))) s₂ i₂ =
            (.ok saved₂, s₃, i₃) ∧
          (s₃.groupsOf tid).map Group.shown = (s'.groupsOf tid).map Group.shown := by
  obtain ⟨t, G, ht, hdone, hopen, hfew, hG₁, hGn, hG₂₆, hreq, -, rfl⟩ := exec_executeDraw_eq_ok h
  have hstatus : t.status = "PUBLISHED" ∨ t.status = "ONGOING" := by
    simpa [drawable] using hopen
  set A := (s.approvedOf tid).map (·.id)
  set P := Draw.seededShuffle A (Seed.forDraw seed i)
  set drawn : Tournament → Tournament :=
    fun t => { t with drawCompleted := true, drawSeed := some (Seed.forDraw seed i) }
  -- the deal places every approved team once, and approved ids are distinct
  have hdealt : (Draw.roundRobin P G).flatten.Perm A :=
    (Draw.flatten_roundRobin_perm P hG₁).trans (Draw.seededShuffle_perm A _)
  have hD := @Store.dealt_afterDraw s tid _ (hdealt.nodup_iff.2 (Store.nodup_approvedOf hkeys))
    drawn
  have hperm : (((s.afterDraw tid (Draw.roundRobin P G) drawn).groupsOf tid).flatMap
      (·.teams)).Perm A := by
    rw [List.flatMap_def, hD.teams]
    exact hdealt
  refine ⟨⟨t, tournament?_of_authorize ht, hdone, hstatus⟩, G, hfew, hG₁, hGn, hG₂₆, hreq,
    ⟨Store.groupsOf_afterDraw_roundRobin P G _, hperm, ?balanced, ?letters, ?flags⟩, ?redraw⟩
  case balanced =>
    intro j k gj gk hjk hj hk
    apply Draw.length_roundRobin_le hjk
    · rw [← hD.teams, List.getElem?_map, hj]
      rfl
    · rw [← hD.teams, List.getElem?_map, hk]
      rfl
  case letters =>
    refine hD.letters ?_ ?_
    · rw [Store.ids_afterDraw]
      exact hkeys
    · rw [Store.approvedOf_afterDraw]
      exact hperm
  case flags =>
    rw [Store.tournament?_afterDraw (f := drawn) _ fun _ => rfl, tournament?_of_authorize ht]
    rfl
  case redraw =>
    intro actor' u s₂ i₂ hr
    exact redraw_same_groups h hr

/-- A cup of two approved teams, registered in turn. -/
def cupStore : Store :=
  { tables := { tournaments := [{ id := "t1", name := "Cup" }],
                registrations := [
                  { id := "r1", tournament := "t1", club := "Ajax", status := "APPROVED",
                    stamp := 1 },
                  { id := "r2", tournament := "t1", club := "Benfica", status := "APPROVED",
                    stamp := 2 }] } }

open Txn in
theorem random_draw_two_teams :
    ∃ saved s' i', exec (executeDraw .null "t1" {} .null (some "cup")) cupStore {} =
      (.ok saved, s', i') ∧ ∃ G, s'.RandomlyDrawn "t1" ["r1", "r2"] "cup" G := by
  have happroved : cupStore.approvedOf "t1" = cupStore.tables.registrations := by
    rw [Store.approvedOf, Store.registrationsOf, List.mergeSort_of_pairwise (by decide)]
    rfl
  obtain ⟨saved, i', h⟩ := @exec_executeDraw_of .null .null "t1" {} (some "cup") cupStore {}
    { id := "t1", name := "Cup" } 1 rfl rfl rfl (by rw [happroved]; decide) le_rfl
    (by rw [happroved]; decide) (by decide) (by rw [happroved]; exact ⟨.int 4, rfl, .inr ⟨rfl, rfl⟩⟩)
    rfl
  obtain ⟨-, G, -, -, -, -, -, hdrawn, -⟩ :=
    random_draw_deals_approved (by decide) h
  have hA : (cupStore.approvedOf "t1").map (·.id) = ["r1", "r2"] := by
    rw [happroved]
    rfl
  exact ⟨saved, _, i', h, G, hA ▸ hdrawn⟩

end TournamentDraw
