import TournamentDraw.Proofs.Wiring

/-!
# The cascade of a decided match

Deciding a knockout match (`Step.settle`) starts a cascade: the winner and the loser move along
the match's links, a match that then faces the bye is decided at once, and so on. The cascade
is a stack machine. Its stack holds what is still owed (`Pending`): a team to seat along a
link, or a match to decide; deciding a match pushes the seats of its two teams, and a seat
that leaves a match facing the bye pushes that match's decision.

An invariant of the cascade is a property of a competition and its stack that survives each
of the three moves (`Cascade`). `Cascade.settle` shows that a whole run of `settle` then
ends without refusing and with the invariant of the stack it started above. Every later
invariant of a knockout draw is proved through it.
-/

namespace TournamentDraw

/-- A move the cascade still owes: seat a team that left the match at `p` along link `k`, or
decide the match at `p` for `winner`. -/
inductive Pending where
  | seat (p : Pos) (k : Link) (team : Value)
  | decide (p : Pos) (winner : Value)

/-- The match decided for `w`: `w` wins, the other side loses, the match is over. -/
def Match.decidedFor (m : Match) (w : Value) : Match :=
  { m with winner := w, loser := m.loserFor w, status := .completed }

namespace Bracket

/-- The match at `p` decided for `w`: `w` wins, the other side loses, the match is over. -/
def decideAt (b : Bracket) (p : Pos) (w : Value) : Bracket :=
  b.modifyAt p fun m => { m with winner := w, loser := (b.game p).loserFor w, status := .completed }

/-- The seats owed once the match at `p` is decided for `w`: the winner along the first link
and then the loser along the second, each when both the link and the team are true values. -/
def seatsAfter (b : Bracket) (p : Pos) (w : Value) : List Pending :=
  (if (b.game p).next.truthy ∧ w.truthy then [.seat p .next w] else []) ++
  (if (b.game p).loserNext.truthy ∧ ((b.game p).loserFor w).truthy then
    [.seat p .loserNext ((b.game p).loserFor w)] else [])

/-- The match at `q` marked as decided against the bye. -/
def markAt (b : Bracket) (q : Pos) : Bracket :=
  b.modifyAt q fun m => { m with autoAdvance := .bool true }

/-- The match at `q` with `x` seated on side `s`. -/
def seatAt (b : Bracket) (q : Pos) (x : Value) (s : Side) : Bracket :=
  b.modifyAt q (·.seatOn x s)

section Events

variable {b : Bracket} {p q : Pos}

theorem keepsLinks_decide (m : Match) (w : Value) :
    Match.KeepsLinks fun m' => { m' with winner := w, loser := m.loserFor w, status := .completed } :=
  fun _ => ⟨rfl, rfl, rfl⟩

theorem keepsLinks_mark :
    Match.KeepsLinks fun m : Match => { m with autoAdvance := .bool true } :=
  fun _ => ⟨rfl, rfl, rfl⟩

theorem keepsLinks_seat (x : Value) (s : Side) : Match.KeepsLinks (·.seatOn x s) := by
  intro m
  cases s <;> exact ⟨rfl, rfl, rfl⟩

@[simp] theorem skeleton_decideAt (w : Value) : (b.decideAt p w).skeleton = b.skeleton :=
  skeleton_modifyAt (keepsLinks_decide _ w)

@[simp] theorem skeleton_markAt : (b.markAt q).skeleton = b.skeleton :=
  skeleton_modifyAt keepsLinks_mark

@[simp] theorem skeleton_seatAt (x : Value) (s : Side) : (b.seatAt q x s).skeleton = b.skeleton :=
  skeleton_modifyAt (keepsLinks_seat x s)

@[simp] theorem positions_decideAt (w : Value) : (b.decideAt p w).positions = b.positions :=
  positions_modifyAt b p _

@[simp] theorem positions_markAt : (b.markAt q).positions = b.positions :=
  positions_modifyAt b q _

@[simp] theorem positions_seatAt (x : Value) (s : Side) :
    (b.seatAt q x s).positions = b.positions :=
  positions_modifyAt b q _

theorem Wired.decideAt (hw : b.Wired) (w : Value) : (b.decideAt p w).Wired :=
  hw.modifyAt (keepsLinks_decide _ w)

theorem Wired.markAt (hw : b.Wired) : (b.markAt q).Wired :=
  hw.modifyAt keepsLinks_mark

theorem Wired.seatAt (hw : b.Wired) (x : Value) (s : Side) : (b.seatAt q x s).Wired :=
  hw.modifyAt (keepsLinks_seat x s)

@[simp] theorem dest_decideAt (w : Value) (p' : Pos) (k : Link) :
    (b.decideAt p w).dest p' k = b.dest p' k :=
  dest_modifyAt (keepsLinks_decide _ w) p' k

@[simp] theorem dest_markAt (p' : Pos) (k : Link) : (b.markAt q).dest p' k = b.dest p' k :=
  dest_modifyAt keepsLinks_mark p' k

@[simp] theorem dest_seatAt (x : Value) (s : Side) (p' : Pos) (k : Link) :
    (b.seatAt q x s).dest p' k = b.dest p' k :=
  dest_modifyAt (keepsLinks_seat x s) p' k

@[simp] theorem arrival_decideAt (w : Value) (p' : Pos) (k : Link) :
    (b.decideAt p w).arrival p' k = b.arrival p' k :=
  arrival_modifyAt (keepsLinks_decide _ w) p' k

@[simp] theorem arrival_markAt (p' : Pos) (k : Link) : (b.markAt q).arrival p' k = b.arrival p' k :=
  arrival_modifyAt keepsLinks_mark p' k

@[simp] theorem arrival_seatAt (x : Value) (s : Side) (p' : Pos) (k : Link) :
    (b.seatAt q x s).arrival p' k = b.arrival p' k :=
  arrival_modifyAt (keepsLinks_seat x s) p' k

@[simp] theorem preferred_decideAt (w : Value) (p' q' : Pos) :
    (b.decideAt p w).preferred p' q' = b.preferred p' q' :=
  preferred_modifyAt p' q'

@[simp] theorem preferred_seatAt (x : Value) (s : Side) (p' q' : Pos) :
    (b.seatAt q x s).preferred p' q' = b.preferred p' q' :=
  preferred_modifyAt p' q'

@[simp] theorem preferred_markAt (p' q' : Pos) : (b.markAt q).preferred p' q' = b.preferred p' q' :=
  preferred_modifyAt p' q'

theorem game_decideAt (hp : p ∈ b.positions) (w : Value) (p' : Pos) :
    (b.decideAt p w).game p' = if p' = p then (b.game p).decidedFor w else b.game p' := by
  rw [decideAt, game_modifyAt _ _ _ _ hp]
  split
  · subst p'; rfl
  · rfl

theorem game_markAt (hq : q ∈ b.positions) (p' : Pos) :
    (b.markAt q).game p' = if p' = q then { b.game q with autoAdvance := .bool true }
    else b.game p' := by
  rw [markAt, game_modifyAt _ _ _ _ hq]
  split
  · subst p'; rfl
  · rfl

theorem game_seatAt (hq : q ∈ b.positions) (x : Value) (s : Side) (p' : Pos) :
    (b.seatAt q x s).game p' = if p' = q then (b.game q).seatOn x s else b.game p' := by
  rw [seatAt, game_modifyAt _ _ _ _ hq]
  split
  · subst p'; rfl
  · rfl

end Events

end Bracket

/-- What an invariant asks once the match at `q` may face the bye: if it does, the match is
marked and its decision is owed, else nothing more is owed. -/
def Settles (I : Bracket → List Pending → Prop) (b : Bracket) (q : Pos) (ps : List Pending) :
    Prop :=
  match (b.game q).byeWinner? with
  | some w => I (b.markAt q) (.decide q w :: ps)
  | none => I b ps

/-- An invariant of the cascade: it holds of wired draws only, and survives deciding a match,
and seating a team on a free side of the match its link leads to. -/
structure Cascade (I : Bracket → List Pending → Prop) : Prop where
  wired : ∀ b ps, I b ps → b.Wired
  decide : ∀ b p w ps, I b (.decide p w :: ps) →
    p ∈ b.positions ∧ I (b.decideAt p w) (b.seatsAfter p w ++ ps)
  seat : ∀ b p k x ps, I b (.seat p k x :: ps) → p ∈ b.positions ∧
    ∃ q s, b.dest p k = some q ∧ (b.game q).freeSide? (b.preferred p q) = some s ∧
      Settles I (b.seatAt q x s) q ps

namespace Step

/-- One link of the cascade: seat the team along it, then decide the match it lands in if
that match now faces the bye. -/
def follow (f : Nat) (m : Match) (target team : Value) : Step Unit := do
  if target.truthy ∧ team.truthy then
    let tp ← seat m.id target team
    match (← matchAt tp).byeWinner? with
    | some w =>
      update tp fun m => { m with autoAdvance := .bool true }
      settle f tp w
    | none => pure ()

theorem settle_succ (f : Nat) (p : Pos) (w : Value) : settle (f + 1) p w = (do
    let m ← matchAt p
    update p fun m' => { m' with winner := w, loser := m.loserFor w, status := .completed }
    follow f m m.next w
    follow f m m.loserNext (m.loserFor w)) := rfl

theorem exec_knockoutKeys {b : Bracket} (hw : b.Wired) : exec knockoutKeys b = (.ok (), b) := by
  have hloop : ∀ l : List (Pos × Match), (∀ x ∈ l, x ∈ b.knockoutPlaces) →
      exec (forIn l PUnit.unit fun x (_ : PUnit) => do
        keyable x.2.id
        pure (ForInStep.yield PUnit.unit)) b = (.ok PUnit.unit, b) := by
    intro l hl
    induction l with
    | nil => rfl
    | cons x xs ih =>
      obtain ⟨q, m⟩ := x
      obtain ⟨hq, rfl⟩ := Bracket.mem_knockoutPlaces_iff.1 (hl _ List.mem_cons_self)
      obtain ⟨s, hs, -⟩ := hw.named q hq
      have hkey : exec (do
          keyable (b.game q).id
          pure (ForInStep.yield PUnit.unit)) b = (.ok (.yield PUnit.unit), b) := by
        rw [hs]
        rfl
      rw [List.forIn_cons, exec_bind_of_ok hkey]
      exact ih fun y hy => hl y (List.mem_cons_of_mem _ hy)
  unfold knockoutKeys
  rw [exec_bind_of_ok (exec_get b), exec_bind_of_ok (hloop _ fun _ hx => hx)]
  rfl

@[simp] theorem exec_fuel (b : Bracket) : exec fuel b = (.ok (b.knockoutCount + 1), b) := rfl

theorem exec_seat {b : Bracket} {p q : Pos} {k : Link} (hw : b.Wired) (hp : p ∈ b.positions)
    (hq : b.dest p k = some q) (x : Value) :
    exec (seat (b.game p).id ((b.game p).target k) x) b =
      match (b.game q).freeSide? (b.preferred p q) with
      | some s => (.ok q, b.seatAt q x s)
      | none => (.error (.full (b.game q).id.describe), b) := by
  obtain ⟨hq', hid⟩ := (Bracket.dest_eq_some_iff hw).1 hq
  obtain ⟨s, hs, -⟩ := hw.named p hp
  obtain ⟨t, ht, -⟩ := hw.named q hq'
  have hlp : b.locate? (.str s) = some p := hs ▸ Bracket.locate?_id hw hp
  have hlq : b.locate? (.str t) = some q := ht ▸ Bracket.locate?_id hw hq'
  rw [← hid, hs, ht]
  simp only [seat, exec_bind, exec_locate_str, hlp, hlq, exec_roundAt, exec_matchAt]
  simp only [Bracket.preferred, Bracket.roundOf]
  cases hfs : (b.game q).freeSide?
      (preferredSide (b.rounds[p.round]?.getD default) p.index (b.rounds[q.round]?.getD default)) with
  | none => simp [ht]
  | some side => rfl

end Step

theorem Bracket.Wired.length_le_knockoutCount {b : Bracket} (hw : b.Wired) :
    b.rounds.length ≤ b.knockoutCount := by
  have := List.length_le_sum_of_one_le (b.rounds.map (·.games.length)) (by
    intro i hi
    obtain ⟨r, hr, rfl⟩ := List.mem_map.1 hi
    exact List.length_pos_iff.2 (hw.games_ne r hr))
  simpa [Bracket.knockoutCount] using this

/-- Settling a match keeps the skeleton, so it settles with the skeleton held fixed. -/
theorem Settles.withSkeleton {I : Bracket → List Pending → Prop} {b : Bracket} {q : Pos}
    {ps : List Pending} (h : Settles I b q ps) {S : List (List (Value × Value × Value))}
    (hS : b.skeleton = S) : Settles (fun b ps => I b ps ∧ b.skeleton = S) b q ps := by
  unfold Settles at h ⊢
  cases hbye : (b.game q).byeWinner? <;> rw [hbye] at h
  · exact ⟨h, hS⟩
  · exact ⟨h, by rw [Bracket.skeleton_markAt, hS]⟩

/-- A match settles under two invariants when it settles under each. -/
theorem Settles.and {I J : Bracket → List Pending → Prop} {b : Bracket} {q : Pos}
    {ps : List Pending} (hI : Settles I b q ps) (hJ : Settles J b q ps) :
    Settles (fun b ps => I b ps ∧ J b ps) b q ps := by
  unfold Settles at hI hJ ⊢
  cases hbye : (b.game q).byeWinner? <;> rw [hbye] at hI hJ
  · exact ⟨hI, hJ⟩
  · exact ⟨hI, hJ⟩

namespace Cascade

variable {I : Bracket → List Pending → Prop}

/-- An invariant of the cascade carries a second one whose steps may rely on the first: the
two together are an invariant. -/
theorem and (hI : Cascade I) {J : Bracket → List Pending → Prop}
    (hdecide : ∀ b p w ps, I b (.decide p w :: ps) → J b (.decide p w :: ps) →
      J (b.decideAt p w) (b.seatsAfter p w ++ ps))
    (hseat : ∀ b p k x ps q s, I b (.seat p k x :: ps) → J b (.seat p k x :: ps) →
      p ∈ b.positions → b.dest p k = some q → Settles J (b.seatAt q x s) q ps) :
    Cascade (fun b ps => I b ps ∧ J b ps) where
  wired b ps h := hI.wired b ps h.1
  decide b p w ps h := by
    obtain ⟨hp, h'⟩ := hI.decide b p w ps h.1
    exact ⟨hp, h', hdecide b p w ps h.1 h.2⟩
  seat b p k x ps h := by
    obtain ⟨hp, q, s, hq, hs, hset⟩ := hI.seat b p k x ps h.1
    exact ⟨hp, q, s, hq, hs, hset.and (hseat b p k x ps q s h.1 h.2 hp hq)⟩

/-- The bye check after a seat, followed by the decision it may owe. -/
theorem settles {N f : Nat}
    (ih : ∀ p w b ps, N ≤ f + p.round → I b (.decide p w :: ps) →
      ∃ b', Step.exec (Step.settle f p w) b = (.ok (), b') ∧ I b' ps)
    {b : Bracket} {q : Pos} {ps : List Pending} (hfuel : N ≤ f + q.round)
    (h : Settles I b q ps) :
    ∃ b', Step.exec (do
        match (← Step.matchAt q).byeWinner? with
        | some w =>
          Step.update q fun m => { m with autoAdvance := .bool true }
          Step.settle f q w
        | none => pure ()) b = (.ok (), b') ∧ I b' ps := by
  unfold Settles at h
  rw [Step.exec_bind_of_ok (Step.exec_matchAt q b)]
  cases hbye : (b.game q).byeWinner? with
  | none =>
    rw [hbye] at h
    exact ⟨b, rfl, h⟩
  | some w =>
    rw [hbye] at h
    obtain ⟨b', hrun, hI'⟩ := ih q w _ ps hfuel h
    exact ⟨b', by rw [Step.exec_bind_of_ok (Step.exec_update _ _ b)]; exact hrun, hI'⟩

/-- One link of the cascade keeps the invariant, given that deciding a deeper match does. -/
theorem follow (hI : Cascade I) {N f : Nat}
    (ih : ∀ p w b ps, N ≤ f + p.round → I b (.decide p w :: ps) →
      ∃ b', Step.exec (Step.settle f p w) b = (.ok (), b') ∧ I b' ps)
    {b : Bracket} {p : Pos} {k : Link} {x : Value} {ps : List Pending} {m : Match}
    (hm : m.id = (b.game p).id) (hfuel : N ≤ f + 1 + p.round) (hx : x.truthy = true)
    (h : I b (.seat p k x :: ps)) :
    ∃ b', Step.exec (Step.follow f m ((b.game p).target k) x) b = (.ok (), b') ∧ I b' ps := by
  have hw := hI.wired _ _ h
  obtain ⟨hp, q, s, hq, hs, hset⟩ := hI.seat _ _ _ _ _ h
  have hlt := Bracket.round_lt_of_dest hw hp hq
  have hcond : ((b.game p).target k).truthy = true := Bracket.dest_truthy hw hq
  have hseat := Step.exec_seat hw hp hq x
  rw [hs, ← hm] at hseat
  rw [Step.follow, if_pos ⟨hcond, hx⟩, Step.exec_bind_of_ok hseat]
  exact settles ih (by omega) hset

/-- A link whose team or target is not a true value is not followed. -/
theorem follow_skip {f : Nat} {m : Match} {target x : Value} (h : ¬(target.truthy ∧ x.truthy))
    (b : Bracket) : Step.exec (Step.follow f m target x) b = (.ok (), b) := by
  rw [Step.follow, if_neg h]
  rfl

/-- No step of the cascade changes an id or a link, so an invariant may hold the skeleton
fixed as well. -/
theorem withSkeleton (hI : Cascade I) (S : List (List (Value × Value × Value))) :
    Cascade (fun b ps => I b ps ∧ b.skeleton = S) where
  wired b ps h := hI.wired b ps h.1
  decide b p w ps h := by
    obtain ⟨hp, h'⟩ := hI.decide b p w ps h.1
    exact ⟨hp, h', by rw [Bracket.skeleton_decideAt, h.2]⟩
  seat b p k x ps h := by
    obtain ⟨hp, q, s, hq, hs, hset⟩ := hI.seat b p k x ps h.1
    exact ⟨hp, q, s, hq, hs, hset.withSkeleton (by rw [Bracket.skeleton_seatAt, h.2])⟩

/-- **The cascade keeps its invariants.** Deciding a match with enough fuel ends without
refusing, in a competition where the invariant holds of the stack below the decision. The
fuel suffices when it reaches past the last round, since every link leads to a later round. -/
theorem settle (hI : Cascade I) {S : List (List (Value × Value × Value))}
    (hS : ∀ b ps, I b ps → b.skeleton = S) :
    ∀ (f : Nat) (p : Pos) (w : Value) (b : Bracket) (ps : List Pending),
      S.length ≤ f + p.round → I b (.decide p w :: ps) →
      ∃ b', Step.exec (Step.settle f p w) b = (.ok (), b') ∧ I b' ps := by
  intro f
  induction f with
  | zero =>
    intro p w b ps hfuel h
    obtain ⟨hp, -⟩ := hI.decide _ _ _ _ h
    have hlen : b.rounds.length = S.length := by rw [← hS _ _ h]; simp [Bracket.skeleton]
    have hr : p.round < b.rounds.length := by
      obtain ⟨m, hm⟩ := Option.isSome_iff_exists.1 (Bracket.mem_positions.1 hp)
      simp only [Bracket.matchAt?, Option.bind_eq_some_iff] at hm
      obtain ⟨r, hr, -⟩ := hm
      exact (List.getElem?_eq_some_iff.1 hr).1
    omega
  | succ f ih =>
    intro p w b ps hfuel h
    obtain ⟨hp, hdec⟩ := hI.decide _ _ _ _ h
    rw [Step.settle_succ, Step.exec_bind_of_ok (Step.exec_matchAt p b),
      Step.exec_bind_of_ok (Step.exec_update _ _ b)]
    -- the skeleton is fixed, so the id and links of the decided match are read off it
    have hlinks : ∀ b' ps', I b' ps' → (b'.game p).id = (b.game p).id ∧
        ∀ k, (b'.game p).target k = (b.game p).target k := fun b' ps' h' =>
      ⟨Bracket.game_id_eq_of_skeleton ((hS _ _ h').trans (hS _ _ h).symm) p,
        Bracket.game_target_eq_of_skeleton ((hS _ _ h').trans (hS _ _ h).symm) p⟩
    change ∃ b', Step.exec (Step.follow f (b.game p) (b.game p).next w >>= fun _ =>
      Step.follow f (b.game p) (b.game p).loserNext ((b.game p).loserFor w))
      (b.decideAt p w) = _ ∧ _
    -- the winner's link, then the loser's
    have hfirst : ∃ b₁, Step.exec (Step.follow f (b.game p) (b.game p).next w)
        (b.decideAt p w) = (.ok (), b₁) ∧
        I b₁ ((if (b.game p).loserNext.truthy ∧ ((b.game p).loserFor w).truthy then
          [Pending.seat p .loserNext ((b.game p).loserFor w)] else []) ++ ps) := by
      by_cases hc : (b.game p).next.truthy ∧ w.truthy
      · have h₁ := hdec
        rw [Bracket.seatsAfter, if_pos hc, List.singleton_append, List.cons_append] at h₁
        have := follow hI ih (k := .next) (hlinks _ _ h₁).1.symm (by omega) hc.2 h₁
        rwa [(hlinks _ _ h₁).2 .next] at this
      · refine ⟨_, follow_skip hc _, ?_⟩
        rw [Bracket.seatsAfter, if_neg hc, List.nil_append] at hdec
        exact hdec
    obtain ⟨b₁, hrun₁, h₁⟩ := hfirst
    rw [Step.exec_bind_of_ok hrun₁]
    by_cases hc : (b.game p).loserNext.truthy ∧ ((b.game p).loserFor w).truthy
    · rw [if_pos hc, List.singleton_append] at h₁
      have := follow hI ih (k := .loserNext) (hlinks _ _ h₁).1.symm (by omega) hc.2 h₁
      rwa [(hlinks _ _ h₁).2 .loserNext] at this
    · rw [if_neg hc, List.nil_append] at h₁
      exact ⟨_, follow_skip hc _, h₁⟩

/-- Deciding the match at `q` if it faces the bye keeps the invariant. -/
theorem resolveByeAt (hI : Cascade I) {S : List (List (Value × Value × Value))}
    (hS : ∀ b ps, I b ps → b.skeleton = S) {b : Bracket} {q : Pos} {ps : List Pending}
    (h : Settles I b q ps) :
    ∃ b', Step.exec (Step.resolveByeAt q) b = (.ok (), b') ∧ I b' ps := by
  unfold Settles at h
  unfold Step.resolveByeAt
  rw [Step.exec_bind_of_ok (Step.exec_matchAt q b)]
  cases hbye : (b.game q).byeWinner? with
  | none =>
    rw [hbye] at h
    exact ⟨b, rfl, h⟩
  | some w =>
    rw [hbye] at h
    have hw := hI.wired _ _ h
    have hfuel : S.length ≤ (b.markAt q).knockoutCount + 1 + q.round := by
      have := hw.length_le_knockoutCount
      rw [← hS _ _ h]
      simp only [Bracket.skeleton, List.length_map]
      omega
    obtain ⟨b', hrun, hI'⟩ := hI.settle hS _ q w _ ps hfuel h
    refine ⟨b', ?_, hI'⟩
    rw [Step.exec_bind_of_ok (Step.exec_update _ _ b),
      Step.exec_bind_of_ok (Step.exec_fuel _)]
    exact hrun

/-- Deciding every match that faces the bye, place by place, keeps a family of invariants
indexed by the places still to visit, when each visit hands the invariant on. -/
theorem resolveByes {J : List (Pos × Match) → Bracket → List Pending → Prop}
    (hJ : ∀ xs, Cascade (J xs)) {S : List (List (Value × Value × Value))}
    (hS : ∀ xs b ps, J xs b ps → b.skeleton = S)
    (hstep : ∀ x xs b, J (x :: xs) b [] → Settles (J xs) b x.1 [])
    {b : Bracket} (h : J b.knockoutPlaces b []) :
    ∃ b', Step.exec Step.resolveByes b = (.ok (), b') ∧ J [] b' [] := by
  have hw := (hJ _).wired _ _ h
  obtain ⟨u, b', hrun, hb'⟩ := Step.exec_forIn_of_step (fun xs (_ : PUnit) b' => J xs b' [])
    (fun x (_ : PUnit) => do
      Step.resolveByeAt x.1
      pure (ForInStep.yield PUnit.unit))
    (fun x xs _ b' hx => by
      obtain ⟨b'', hrun, hJ'⟩ := resolveByeAt (hJ xs) (hS xs) (hstep x xs b' hx)
      exact ⟨PUnit.unit, b'', Step.exec_bind_of_ok hrun, hJ'⟩)
    b.knockoutPlaces PUnit.unit b h
  refine ⟨b', ?_, hb'⟩
  unfold Step.resolveByes
  rw [Step.exec_bind_of_ok (Step.exec_knockoutKeys hw), Step.exec_bind_of_ok (Step.exec_get b),
    Step.exec_bind_of_ok hrun]
  rfl

end Cascade

end TournamentDraw
