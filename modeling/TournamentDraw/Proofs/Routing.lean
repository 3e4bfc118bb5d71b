import TournamentDraw.Proofs.Record

/-!
# Where the teams of a knockout draw are

A team stands on a side of a match beyond the first round only because a decided match sent it
there: its winner along the first link, its loser along the second. `Routed` says so as a
balance, for every such match: the teams on its sides, with the teams the cascade still owes
it, are the teams its feeders sent it. Alongside it holds that every decided match has both
sides filled with its winner and loser, that open matches have no result, and that no team
other than the bye stands twice in the first round.

The balance survives every move of the cascade, so deciding a match never meets a match
whose two sides are taken: at most two links lead into a match, one to each side. It also
survives taking a result back. From the balance, a team of the first round is in at most one
open match.

The cascade never changes the first round, so it keeps the rest of the invariant on its own:
`Flowing` is `Routed` without the first round, for draws where a team may stand there twice.
-/

open scoped BigOperators

namespace TournamentDraw

namespace Match

/-- The teams on the sides of a match, the empty sides left out. -/
def sides (m : Match) : Multiset Value :=
  (if m.team1.isNull then 0 else {m.team1}) + (if m.team2.isNull then 0 else {m.team2})

/-- A match whose result stands: both sides hold teams, which are its winner and its loser. -/
def Decided (m : Match) : Prop :=
  m.team1 ≠ .null ∧ m.team2 ≠ .null ∧
    (m.winner = m.team1 ∧ m.loser = m.team2 ∨ m.winner = m.team2 ∧ m.loser = m.team1)

/-- What the routing invariant reads of a match: its teams, its result and whether it is over. -/
def standing (m : Match) : Value × Value × Value × Value × Bool :=
  (m.team1, m.team2, m.winner, m.loser, m.isCompleted)

theorem sides_congr {m m' : Match} (h : m'.standing = m.standing) : m'.sides = m.sides := by
  simp only [standing, Prod.mk.injEq] at h
  simp only [sides, h.1, h.2.1]

theorem decided_congr {m m' : Match} (h : m'.standing = m.standing) : m'.Decided ↔ m.Decided := by
  simp only [standing, Prod.mk.injEq] at h
  simp only [Decided, h.1, h.2.1, h.2.2.1, h.2.2.2.1]

theorem mover_congr {m m' : Match} (h : m'.standing = m.standing) (k : Link) :
    m'.mover k = m.mover k := by
  simp only [standing, Prod.mk.injEq] at h
  cases k
  · exact h.2.2.1
  · exact h.2.2.2.1

theorem isCompleted_congr {m m' : Match} (h : m'.standing = m.standing) :
    m'.isCompleted = m.isCompleted := by
  simp only [standing, Prod.mk.injEq] at h
  exact h.2.2.2.2

theorem card_sides (m : Match) :
    Multiset.card m.sides = (if m.team1.isNull then 0 else 1) + (if m.team2.isNull then 0 else 1) := by
  unfold sides
  split <;> split <;> simp

theorem freeSide?_isSome {m : Match} (side : Side) (h : m.team1.isNull = true ∨ m.team2.isNull = true) :
    ∃ s, m.freeSide? side = some s := by
  cases h1 : m.team1.isNull <;> cases h2 : m.team2.isNull <;> cases side <;>
    simp_all [freeSide?]

/-- A side that a moving team takes was empty, and it then holds the team. -/
theorem sides_seatOn {m : Match} {side s : Side} (h : m.freeSide? side = some s) {x : Value}
    (hx : x.isNull = false) : (m.seatOn x s).sides = x ::ₘ m.sides := by
  unfold freeSide? at h
  cases side <;> cases h1 : m.team1.isNull <;> cases h2 : m.team2.isNull <;>
    simp only [h1, h2, Option.some.injEq, reduceCtorEq] at h <;> subst h <;>
    simp [seatOn, sides, h1, h2, hx, add_comm]

/-- Deciding a match whose sides hold two teams for one of them leaves a result that stands. -/
theorem decided_decide {m : Match} (h1 : m.team1.Textual) (h2 : m.team2.Textual)
    (n1 : m.team1 ≠ .null) (n2 : m.team2 ≠ .null) {w : Value} (hw : w = m.team1 ∨ w = m.team2) :
    (m.decidedFor w).Decided := by
  have hwt : w.Textual := by rcases hw with rfl | rfl <;> assumption
  refine ⟨n1, n2, ?_⟩
  simp only [decidedFor, loserFor]
  by_cases he : w.eqv m.team1 = true
  · rw [if_pos he]
    exact .inl ⟨(hwt.eqv_iff.1 he).symm, rfl⟩
  · rw [if_neg he]
    have hne : w ≠ m.team1 := fun h0 => he (hwt.eqv_iff.2 h0.symm)
    exact .inr ⟨hw.resolve_left hne, rfl⟩

theorem byeWinner?_eq_some {m : Match} {w : Value} (h : m.byeWinner? = some w) :
    m.isCompleted = false ∧ m.team1 ≠ .null ∧ m.team2 ≠ .null ∧ (w = m.team1 ∨ w = m.team2) := by
  unfold byeWinner? at h
  split at h
  · cases h
  · next hopen =>
    simp only [not_or, Bool.not_eq_true] at hopen
    obtain ⟨hc, n1, n2⟩ := hopen
    have ne : ∀ {v : Value}, v.isNull = false → v ≠ .null := fun hv h0 => by
      rw [h0] at hv
      cases hv
    refine ⟨hc, ne n1, ne n2, ?_⟩
    split at h
    · cases h
      exact .inr rfl
    · split at h
      · cases h
        exact .inl rfl
      · cases h

end Match

/-- The place a pending move decides, if it is a decision. -/
def Pending.decides? : Pending → Option Pos
  | .decide p _ => some p
  | .seat .. => none

/-- The places a stack of pending moves still has to decide. -/
def Pending.decisions (ps : List Pending) : List Pos :=
  ps.filterMap Pending.decides?

namespace Pending

variable {p : Pos} {k : Link} {x w : Value} {ps qs : List Pending}

@[simp] theorem decisions_nil : decisions [] = [] := rfl

@[simp] theorem decisions_cons_seat : decisions (.seat p k x :: ps) = decisions ps := rfl

@[simp] theorem decisions_cons_decide : decisions (.decide p w :: ps) = p :: decisions ps := rfl

@[simp] theorem decisions_append : decisions (ps ++ qs) = decisions ps ++ decisions qs :=
  List.filterMap_append

theorem mem_decisions_of_mem (h : Pending.decide p w ∈ ps) : p ∈ decisions ps :=
  List.mem_filterMap.2 ⟨_, h, rfl⟩

end Pending

/-- A sum over places changed at one place only. -/
theorem sum_add_eq_of_eq_off {s : Finset Pos} {f g : Pos → Multiset Value} {a : Pos} (ha : a ∈ s)
    (h : ∀ x ∈ s, x ≠ a → f x = g x) : (∑ x ∈ s, f x) + g a = (∑ x ∈ s, g x) + f a := by
  rw [← Finset.add_sum_erase s f ha, ← Finset.add_sum_erase s g ha,
    Finset.sum_congr rfl fun x hx => h x (Finset.mem_of_mem_erase hx) (Finset.ne_of_mem_erase hx)]
  ac_rfl

namespace Bracket

/-- The team that the match at `p` sent along link `k` into the match at `q`: the team that
moves along it, once the match is completed and the team is a true value. -/
def sent (b : Bracket) (p : Pos) (k : Link) (q : Pos) : Multiset Value :=
  if (b.game p).isCompleted ∧ b.dest p k = some q ∧ ((b.game p).mover k).truthy then
    {(b.game p).mover k}
  else 0

/-- Every team sent into the match at `q`. -/
def inflow (b : Bracket) (q : Pos) : Multiset Value :=
  ∑ p ∈ b.positions, (b.sent p .next q + b.sent p .loserNext q)

/-- The team a pending move still owes to the match at `q`. -/
def owes (b : Bracket) (q : Pos) : Pending → Option Value
  | .seat p k x => if b.dest p k = some q then some x else none
  | .decide .. => none

/-- The teams a stack of pending moves still owes to the match at `q`. -/
def owed (b : Bracket) (ps : List Pending) (q : Pos) : Multiset Value :=
  (ps.filterMap (b.owes q) : Multiset Value)

/-- The teams on the sides of the first round. -/
def firstSides (b : Bracket) : Multiset Value :=
  ∑ q ∈ b.positions.filter (·.round = 0), (b.game q).sides

section Flow

variable {b : Bracket} {p q : Pos} {w : Value}

@[simp] theorem owed_nil : b.owed [] q = 0 := rfl

@[simp] theorem owed_cons_decide (ps : List Pending) : b.owed (.decide p w :: ps) q = b.owed ps q :=
  rfl

theorem owed_cons_seat (k : Link) (x : Value) (ps : List Pending) :
    b.owed (.seat p k x :: ps) q = if b.dest p k = some q then x ::ₘ b.owed ps q else b.owed ps q := by
  by_cases hd : b.dest p k = some q <;> simp [owed, owes, hd]

@[simp] theorem owed_append (ps qs : List Pending) : b.owed (ps ++ qs) q = b.owed ps q + b.owed qs q := by
  simp [owed, List.filterMap_append]

theorem sent_of_null (h : (b.game p).winner = .null ∧ (b.game p).loser = .null) (k : Link) (q : Pos) :
    b.sent p k q = 0 := by
  have : ((b.game p).mover k).truthy = false := by cases k <;> simp [Match.mover, h, Value.truthy]
  simp [sent, this]

theorem card_sent_le (p : Pos) (k : Link) (q : Pos) :
    Multiset.card (b.sent p k q) ≤ if b.dest p k = some q then 1 else 0 := by
  unfold sent
  split
  · next h => simp [h.2.1]
  · simp

/-- At most two links lead into a match, one to each side, so at most two teams are sent
into it. -/
theorem card_inflow_le (hw : b.Wired) (q : Pos) : Multiset.card (b.inflow q) ≤ 2 := by
  classical
  let links : Finset Link := {.next, .loserNext}
  let feeders := (b.positions ×ˢ links).filter fun x => b.dest x.1 x.2 = some q
  have hfeeders : feeders.card ≤ 2 := by
    have hmaps : ∀ x ∈ feeders, b.arrival x.1 x.2 ∈ ({.first, .second} : Finset Side) := by
      intro x _
      cases b.arrival x.1 x.2 <;> simp
    have hinj : Set.InjOn (fun x : Pos × Link => b.arrival x.1 x.2) feeders := by
      intro x hx y hy hxy
      simp only [feeders, Finset.coe_filter, Set.mem_ofPred_eq] at hx hy
      obtain ⟨h1, h2⟩ := hw.sides q x.1 x.2 y.1 y.2 hx.2 hy.2 hxy
      exact Prod.ext h1 h2
    calc feeders.card ≤ ({.first, .second} : Finset Side).card :=
          Finset.card_le_card_of_injOn _ hmaps hinj
      _ ≤ 2 := Finset.card_le_two
  have hcount : feeders.card = ∑ p ∈ b.positions,
      ((if b.dest p .next = some q then 1 else 0) + (if b.dest p .loserNext = some q then 1 else 0)) := by
    rw [Finset.card_filter, Finset.sum_product]
    refine Finset.sum_congr rfl fun p _ => ?_
    rw [Finset.sum_pair (by decide)]
  calc Multiset.card (b.inflow q)
      = ∑ p ∈ b.positions, (Multiset.card (b.sent p .next q) + Multiset.card (b.sent p .loserNext q)) := by
        simp [inflow, Multiset.card_sum]
    _ ≤ ∑ p ∈ b.positions,
        ((if b.dest p .next = some q then 1 else 0) + (if b.dest p .loserNext = some q then 1 else 0)) :=
        Finset.sum_le_sum fun p _ => add_le_add (card_sent_le p _ q) (card_sent_le p _ q)
    _ = feeders.card := hcount.symm
    _ ≤ 2 := hfeeders

theorem decisions_seatsAfter : Pending.decisions (b.seatsAfter p w) = [] := by
  unfold seatsAfter
  split <;> split <;> rfl

theorem mem_seatsAfter {p' : Pos} {k : Link} {x : Value} (h : .seat p' k x ∈ b.seatsAfter p w) :
    p' = p ∧ ((b.game p).target k).truthy = true ∧ x.truthy = true ∧
      x = ((b.game p).decidedFor w).mover k := by
  unfold seatsAfter at h
  rcases List.mem_append.1 h with h | h <;> split at h <;>
    simp only [List.mem_cons, Pending.seat.injEq, List.not_mem_nil, or_false] at h
  · obtain ⟨rfl, rfl, rfl⟩ := h
    next hc => exact ⟨rfl, hc.1, hc.2, rfl⟩
  · obtain ⟨rfl, rfl, rfl⟩ := h
    next hc => exact ⟨rfl, hc.1, hc.2, rfl⟩

theorem sides_decideAt (hp : p ∈ b.positions) (q : Pos) :
    ((b.decideAt p w).game q).sides = (b.game q).sides := by
  rw [game_decideAt hp]
  split
  · subst q; rfl
  · rfl

theorem firstSides_decideAt (hp : p ∈ b.positions) : (b.decideAt p w).firstSides = b.firstSides := by
  simp only [firstSides, positions_decideAt, sides_decideAt hp]

theorem sent_seatAt (hq : q ∈ b.positions) (x : Value) (s : Side) (p' : Pos) (k : Link) (q' : Pos) :
    (b.seatAt q x s).sent p' k q' = b.sent p' k q' := by
  have hm : ((b.seatAt q x s).game p').mover k = (b.game p').mover k := by
    rw [game_seatAt hq]
    split
    · subst p'
      cases s <;> cases k <;> rfl
    · rfl
  have hc : ((b.seatAt q x s).game p').isCompleted = (b.game p').isCompleted := by
    rw [game_seatAt hq]
    split
    · subst p'
      cases s <;> rfl
    · rfl
  simp only [sent, dest_seatAt, hm, hc]

theorem inflow_seatAt (hq : q ∈ b.positions) (x : Value) (s : Side) (q' : Pos) :
    (b.seatAt q x s).inflow q' = b.inflow q' := by
  simp only [inflow, positions_seatAt, sent_seatAt hq]

theorem firstSides_seatAt (hq : q ∈ b.positions) (hr : 0 < q.round) (x : Value) (s : Side) :
    (b.seatAt q x s).firstSides = b.firstSides := by
  unfold firstSides
  rw [positions_seatAt]
  refine Finset.sum_congr rfl fun q' hq' => ?_
  have hne : q' ≠ q := by
    rintro rfl
    simp only [Finset.mem_filter] at hq'
    omega
  rw [game_seatAt hq, if_neg hne]

theorem sent_decideAt_self (hp : p ∈ b.positions) (k : Link) (q : Pos) :
    (b.decideAt p w).sent p k q =
      if b.dest p k = some q ∧ (((b.game p).decidedFor w).mover k).truthy then
        {((b.game p).decidedFor w).mover k}
      else 0 := by
  simp [sent, game_decideAt hp, Match.isCompleted, Match.decidedFor]
  rfl

theorem owed_seatsAfter (hw : b.Wired) (hp : p ∈ b.positions) (q : Pos) :
    b.owed (b.seatsAfter p w) q =
      (b.decideAt p w).sent p .next q + (b.decideAt p w).sent p .loserNext q := by
  have link : ∀ (k : Link) (x : Value), b.owed (if ((b.game p).target k).truthy ∧ x.truthy then
      [.seat p k x] else []) q = if b.dest p k = some q ∧ x.truthy then {x} else 0 := by
    intro k x
    by_cases hd : b.dest p k = some q
    · have ht := dest_truthy hw hd
      by_cases hx : x.truthy = true <;> simp [ht, hx, hd, owed_cons_seat]
    · split <;> simp [hd, owed_cons_seat]
  rw [seatsAfter, owed_append]
  refine (congrArg₂ (· + ·) (link .next w) (link .loserNext ((b.game p).loserFor w))).trans ?_
  simp only [sent_decideAt_self hp, Match.mover, Match.decidedFor]
  rfl

theorem inflow_decideAt (hp : p ∈ b.positions)
    (hnull : (b.game p).winner = .null ∧ (b.game p).loser = .null) (q : Pos) :
    (b.decideAt p w).inflow q =
      b.inflow q + ((b.decideAt p w).sent p .next q + (b.decideAt p w).sent p .loserNext q) := by
  have hoff : ∀ x ∈ b.positions, x ≠ p →
      b.sent x .next q + b.sent x .loserNext q =
        (b.decideAt p w).sent x .next q + (b.decideAt p w).sent x .loserNext q := by
    intro x _ hx
    simp only [sent, dest_decideAt, game_decideAt hp, if_neg hx]
  have := sum_add_eq_of_eq_off hp hoff
  rw [sent_of_null hnull, sent_of_null hnull, add_zero, add_zero] at this
  rw [inflow, inflow, positions_decideAt, ← this]

end Flow

section Congr

variable {b b' : Bracket}

theorem sent_congr (hdest : ∀ p k, b'.dest p k = b.dest p k)
    (hst : ∀ p, (b'.game p).standing = (b.game p).standing) (p : Pos) (k : Link) (q : Pos) :
    b'.sent p k q = b.sent p k q := by
  simp only [sent, hdest, Match.isCompleted_congr (hst p), Match.mover_congr (hst p)]

theorem inflow_congr (hpos : b'.positions = b.positions) (hdest : ∀ p k, b'.dest p k = b.dest p k)
    (hst : ∀ p, (b'.game p).standing = (b.game p).standing) (q : Pos) :
    b'.inflow q = b.inflow q := by
  simp only [inflow, hpos, sent_congr hdest hst]

theorem owed_congr (hdest : ∀ p k, b'.dest p k = b.dest p k) (ps : List Pending) (q : Pos) :
    b'.owed ps q = b.owed ps q := by
  have : b'.owes q = b.owes q := by
    funext x
    cases x <;> simp only [owes, hdest]
  rw [owed, owed, this]

theorem firstSides_congr (hpos : b'.positions = b.positions)
    (hst : ∀ p, (b'.game p).standing = (b.game p).standing) : b'.firstSides = b.firstSides := by
  simp only [firstSides, hpos, Match.sides_congr (hst _)]

end Congr

end Bracket

/-- The flow of teams through a knockout draw in the middle of a cascade, whose stack `ps` holds
the moves still owed: the routing invariant but for its first round, which the cascade never
changes. -/
structure Flowing (b : Bracket) (ps : List Pending) : Prop where
  wired : b.Wired
  textual : ∀ q ∈ b.positions, (b.game q).team1.Textual ∧ (b.game q).team2.Textual
  decided : ∀ p ∈ b.positions, (b.game p).isCompleted = true → p ∉ Pending.decisions ps →
    (b.game p).Decided
  unplayed : ∀ p ∈ b.positions, ((b.game p).isCompleted = false ∨ p ∈ Pending.decisions ps) →
    (b.game p).winner = .null ∧ (b.game p).loser = .null
  balanced : ∀ q ∈ b.positions, 0 < q.round → (b.game q).sides + b.owed ps q = b.inflow q
  seats : ∀ p k x, .seat p k x ∈ ps → p ∈ b.positions ∧ (b.game p).isCompleted = true ∧
    (∃ q, b.dest p k = some q) ∧ x = (b.game p).mover k ∧ x.truthy = true
  decisions : ∀ p w, .decide p w ∈ ps → p ∈ b.positions ∧ (b.game p).team1 ≠ .null ∧
    (b.game p).team2 ≠ .null ∧ (w = (b.game p).team1 ∨ w = (b.game p).team2)
  nodup : (Pending.decisions ps).Nodup

namespace Flowing


variable {b b' : Bracket} {ps : List Pending}

/-- The invariant reads only the standing of matches and the links between them. -/
theorem congr (h : Flowing b ps) (hw : b'.Wired) (hpos : b'.positions = b.positions)
    (hdest : ∀ p k, b'.dest p k = b.dest p k)
    (hst : ∀ p, (b'.game p).standing = (b.game p).standing) : Flowing b' ps where
  wired := hw
  textual q hq := by
    have := hst q
    simp only [Match.standing, Prod.mk.injEq] at this
    rw [this.1, this.2.1]
    exact h.textual q (hpos ▸ hq)
  decided p hp hc hd := (Match.decided_congr (hst p)).2
    (h.decided p (hpos ▸ hp) (Match.isCompleted_congr (hst p) ▸ hc) hd)
  unplayed p hp hc := by
    have := hst p
    simp only [Match.standing, Prod.mk.injEq] at this
    rw [this.2.2.1, this.2.2.2.1]
    exact h.unplayed p (hpos ▸ hp) (this.2.2.2.2 ▸ hc)
  balanced q hq hr := by
    rw [Match.sides_congr (hst q), Bracket.owed_congr hdest, Bracket.inflow_congr hpos hdest hst]
    exact h.balanced q (hpos ▸ hq) hr
  seats p k x hx := by
    obtain ⟨hp, hc, hd, hm, ht⟩ := h.seats p k x hx
    refine ⟨hpos ▸ hp, Match.isCompleted_congr (hst p) ▸ hc, by simpa [hdest] using hd, ?_, ht⟩
    rw [Match.mover_congr (hst p)]
    exact hm
  decisions p w hx := by
    have := hst p
    simp only [Match.standing, Prod.mk.injEq] at this
    rw [this.1, this.2.1]
    exact (hpos ▸ h.decisions p w hx :)
  nodup := h.nodup

theorem markAt (h : Flowing b ps) {q : Pos} (hq : q ∈ b.positions) : Flowing (b.markAt q) ps :=
  h.congr h.wired.markAt (Bracket.positions_markAt) (fun _ _ => Bracket.dest_markAt _ _)
    fun p => by
      rw [Bracket.game_markAt hq]
      split
      · subst p; rfl
      · rfl

/-- A match that faces the bye can be owed its decision. -/
theorem push_decide (h : Flowing b ps) {q : Pos} (hq : q ∈ b.positions)
    (hfresh : q ∉ Pending.decisions ps) {w : Value} (hw : (b.game q).byeWinner? = some w) :
    Flowing b (.decide q w :: ps) := by
  obtain ⟨hopen, n1, n2, hwin⟩ := Match.byeWinner?_eq_some hw
  have hother : ∀ p, p ≠ q → (p ∈ q :: Pending.decisions ps ↔ p ∈ Pending.decisions ps) :=
    fun p hne => by simp [hne]
  refine ⟨h.wired, h.textual, ?_, ?_, ?_, ?_, ?_, ?_⟩
  · intro p hp hc hd
    have hne : p ≠ q := fun he => hd (by simp [he])
    exact h.decided p hp hc (by simpa [hother p hne] using hd)
  · intro p hp hc
    by_cases hne : p = q
    · subst p
      exact h.unplayed q hp (.inl hopen)
    · exact h.unplayed p hp (by simpa [hother p hne] using hc)
  · intro q' hq' hr
    rw [Bracket.owed_cons_decide]
    exact h.balanced q' hq' hr
  · intro p k x hx
    simp only [List.mem_cons, reduceCtorEq, false_or] at hx
    exact h.seats p k x hx
  · intro p w' hx
    rcases List.mem_cons.1 hx with hx | hx
    · cases hx
      exact ⟨hq, n1, n2, hwin⟩
    · exact h.decisions p w' hx
  · exact List.nodup_cons.2 ⟨hfresh, h.nodup⟩

/-- After a team is seated in the match at `q`, the match settles: if it then faces the bye it
is marked and its decision is owed. -/
theorem settles (h : Flowing b ps) {q : Pos} (hq : q ∈ b.positions)
    (hfresh : q ∉ Pending.decisions ps) : Settles Flowing b q ps := by
  unfold Settles
  split
  · next w hw => exact (h.push_decide hq hfresh hw).markAt hq
  · exact h

/-- Deciding the match owed on top of the stack keeps the invariant, with the seats of its
two teams owed in its place. -/
theorem decide_step {p : Pos} {w : Value} (h : Flowing b (.decide p w :: ps)) :
    p ∈ b.positions ∧ Flowing (b.decideAt p w) (b.seatsAfter p w ++ ps) := by
  obtain ⟨hp, n1, n2, hwin⟩ := h.decisions p w List.mem_cons_self
  have hfresh : p ∉ Pending.decisions ps := (List.nodup_cons.1 h.nodup).1
  have hnull := h.unplayed p hp (.inr List.mem_cons_self)
  have hdec : Pending.decisions (b.seatsAfter p w ++ ps) = Pending.decisions ps := by
    simp [Bracket.decisions_seatsAfter]
  have hgame := Bracket.game_decideAt hp w
  -- every other match keeps its standing, and whether it owes a decision
  have hother : ∀ p', p' ≠ p → (p' ∈ p :: Pending.decisions ps ↔ p' ∈ Pending.decisions ps) :=
    fun p' hne => by simp [hne]
  refine ⟨hp, ?_⟩
  constructor
  · exact h.wired.decideAt w
  · intro q hq
    rw [hgame]
    split
    · subst q
      exact h.textual p hp
    · exact h.textual q (by simpa using hq)
  · intro q hq hc hd
    rw [hdec] at hd
    rw [hgame] at hc ⊢
    split
    · subst q
      exact Match.decided_decide (h.textual p hp).1 (h.textual p hp).2 n1 n2 hwin
    · next hne =>
      rw [if_neg hne] at hc
      exact h.decided q (by simpa using hq) hc (by simpa [hother q hne] using hd)
  · intro q hq hc
    rw [hdec] at hc
    rw [hgame] at hc ⊢
    split
    · subst q
      simp only [if_true, Match.isCompleted, Match.decidedFor] at hc
      exact absurd hc (by simpa using hfresh)
    · next hne =>
      rw [if_neg hne] at hc
      exact h.unplayed q (by simpa using hq) (by simpa [hother q hne] using hc)
  · intro q hq hr
    have hb := h.balanced q (by simpa using hq) hr
    rw [Bracket.owed_cons_decide] at hb
    rw [Bracket.inflow_decideAt hp hnull, ← hb, Bracket.owed_append,
      Bracket.owed_congr (fun _ _ => Bracket.dest_decideAt w _ _) (b.seatsAfter p w),
      Bracket.owed_congr (fun _ _ => Bracket.dest_decideAt w _ _) ps,
      Bracket.owed_seatsAfter h.wired hp, Bracket.sides_decideAt hp]
    ac_rfl
  · intro p' k x hx
    rcases List.mem_append.1 hx with hx | hx
    · -- a seat of the match just decided
      obtain ⟨rfl, ht, hxt, rfl⟩ := Bracket.mem_seatsAfter hx
      obtain ⟨q, hq⟩ := Bracket.dest_of_truthy h.wired hp ht
      rw [hgame, if_pos rfl]
      exact ⟨by simpa using hp, rfl, ⟨q, by simpa using hq⟩, rfl, hxt⟩
    · obtain ⟨hp', hc, ⟨q, hq⟩, rfl, hxt⟩ := h.seats p' k x (List.mem_cons_of_mem _ hx)
      have hne : p' ≠ p := by
        rintro rfl
        cases k <;> simp [Match.mover, hnull, Value.truthy] at hxt
      rw [hgame, if_neg hne]
      exact ⟨by simpa using hp', hc, ⟨q, by simpa using hq⟩, rfl, hxt⟩
  · intro p'' w'' hx
    rcases List.mem_append.1 hx with hx | hx
    · have := Pending.mem_decisions_of_mem hx
      rw [Bracket.decisions_seatsAfter] at this
      cases this
    · have hne : p'' ≠ p := fun he => hfresh (he ▸ Pending.mem_decisions_of_mem hx)
      rw [hgame, if_neg hne]
      simpa using h.decisions p'' w'' (List.mem_cons_of_mem _ hx)
  · rw [hdec]
    exact (List.nodup_cons.1 h.nodup).2

/-- A team owed by the stack is a team of the match it leaves. -/
theorem seat_textual (h : Flowing b ps) {p : Pos} {k : Link} {x : Value}
    (hx : .seat p k x ∈ ps) : x.Textual ∧ x ≠ .null := by
  obtain ⟨hp, hc, -, rfl, hxt⟩ := h.seats p k _ hx
  have hfresh : p ∉ Pending.decisions ps := by
    intro hd
    have hnull := h.unplayed p hp (.inr hd)
    cases k <;> simp [Match.mover, hnull, Value.truthy] at hxt
  obtain ⟨n1, n2, hwl⟩ := h.decided p hp hc hfresh
  obtain ⟨t1, t2⟩ := h.textual p hp
  rcases hwl with ⟨hw, hl⟩ | ⟨hw, hl⟩ <;> cases k <;>
    simp only [Match.mover, hw, hl] <;> exact ⟨‹_›, ‹_›⟩

/-- Seating the team owed on top of the stack keeps the invariant: the match its link leads
to has a free side, and settles once the team is seated. -/
theorem seat_step {p : Pos} {k : Link} {x : Value} (h : Flowing b (.seat p k x :: ps)) :
    p ∈ b.positions ∧ ∃ q s, b.dest p k = some q ∧
      (b.game q).freeSide? (b.preferred p q) = some s ∧ Settles Flowing (b.seatAt q x s) q ps := by
  obtain ⟨hp, hc, ⟨q, hq⟩, hxm, hxt⟩ := h.seats p k x List.mem_cons_self
  obtain ⟨hxtext, hxnull⟩ := h.seat_textual List.mem_cons_self
  have hqpos := Bracket.mem_positions_of_dest h.wired hq
  have hr : 0 < q.round := Nat.lt_of_le_of_lt (Nat.zero_le _) (Bracket.round_lt_of_dest h.wired hp hq)
  -- the balance at `q` leaves room for one more team
  have hbal := h.balanced q hqpos hr
  rw [Bracket.owed_cons_seat, if_pos hq] at hbal
  have hcard : Multiset.card (b.game q).sides ≤ 1 := by
    have h2 := Bracket.card_inflow_le h.wired q
    rw [← hbal, Multiset.card_add, Multiset.card_cons] at h2
    omega
  have hfree : (b.game q).team1.isNull = true ∨ (b.game q).team2.isNull = true := by
    rw [Match.card_sides] at hcard
    by_contra hn
    simp only [not_or, Bool.not_eq_true] at hn
    simp [hn.1, hn.2] at hcard
  obtain ⟨s, hs⟩ := Match.freeSide?_isSome (b.preferred p q) hfree
  -- the match at `q` is open and owes no decision: both would fill its two sides
  have hfull : ¬((b.game q).team1 ≠ .null ∧ (b.game q).team2 ≠ .null) := by
    rintro ⟨n1, n2⟩
    rcases hfree with h0 | h0
    · exact n1 (by cases h1 : (b.game q).team1 <;> simp_all [Value.isNull])
    · exact n2 (by cases h2 : (b.game q).team2 <;> simp_all [Value.isNull])
  have hqfresh : q ∉ Pending.decisions ps := by
    intro hd
    obtain ⟨w, hw⟩ : ∃ w, Pending.decide q w ∈ ps := by
      obtain ⟨y, hy, hy'⟩ := List.mem_filterMap.1 hd
      cases y with
      | seat => cases hy'
      | decide q' w => cases hy'; exact ⟨w, hy⟩
    obtain ⟨-, n1, n2, -⟩ := h.decisions q w (List.mem_cons_of_mem _ hw)
    exact hfull ⟨n1, n2⟩
  have hqopen : (b.game q).isCompleted = false := by
    by_contra hcq
    simp only [Bool.not_eq_false] at hcq
    obtain ⟨n1, n2, -⟩ := h.decided q hqpos hcq (by simpa using hqfresh)
    exact hfull ⟨n1, n2⟩
  have hgame := Bracket.game_seatAt hqpos x s
  have hdec : Pending.decisions (.seat p k x :: ps) = Pending.decisions ps := rfl
  refine ⟨hp, q, s, hq, hs, Flowing.settles ?_ (by simpa using hqpos) hqfresh⟩
  constructor
  · exact h.wired.seatAt x s
  · intro q' hq'
    rw [hgame]
    split
    · subst q'
      have := h.textual q hqpos
      cases s <;> exact ⟨by first | exact hxtext | exact this.1, by first | exact hxtext | exact this.2⟩
    · exact h.textual q' (by simpa using hq')
  · intro q' hq' hcq hd
    rw [hgame] at hcq ⊢
    split
    · subst q'
      rw [if_pos rfl] at hcq
      cases s <;> simp_all [Match.seatOn, Match.isCompleted]
    · next hne =>
      rw [if_neg hne] at hcq
      exact h.decided q' (by simpa using hq') hcq (by rwa [hdec])
  · intro q' hq' hcq
    rw [hgame] at hcq ⊢
    split
    · subst q'
      have := h.unplayed q hqpos (.inl hqopen)
      cases s <;> exact this
    · next hne =>
      rw [if_neg hne] at hcq
      exact h.unplayed q' (by simpa using hq') (by rwa [hdec])
  · intro q' hq' hr'
    rw [Bracket.inflow_seatAt hqpos, Bracket.owed_congr (fun _ _ => Bracket.dest_seatAt x s _ _), hgame]
    split
    · subst q'
      rw [Match.sides_seatOn hs (by cases x <;> simp_all [Value.isNull]), ← hbal, Multiset.cons_add,
        Multiset.add_cons]
    · next hne =>
      have hb := h.balanced q' (by simpa using hq') hr'
      rwa [Bracket.owed_cons_seat, if_neg (by rw [hq]; exact fun he => hne (Option.some.inj he).symm)] at hb
  · intro p' k' x' hx
    obtain ⟨hp', hc', ⟨q', hq'⟩, hm', hxt'⟩ := h.seats p' k' x' (List.mem_cons_of_mem _ hx)
    refine ⟨by simpa using hp', ?_, ⟨q', by simpa using hq'⟩, ?_, hxt'⟩
    · rw [hgame]
      split
      · subst p'; cases s <;> exact hc'
      · exact hc'
    · rw [hgame]
      split
      · subst p'; cases s <;> cases k' <;> exact hm'
      · exact hm'
  · intro p'' w hx
    have hne : p'' ≠ q := fun he => hqfresh (he ▸ Pending.mem_decisions_of_mem hx)
    rw [hgame, if_neg hne]
    simpa using h.decisions p'' w (List.mem_cons_of_mem _ hx)
  · exact h.nodup

/-- The flow of the routing invariant is an invariant of the cascade. -/
theorem cascade : Cascade Flowing where
  wired _ _ h := h.wired
  decide _ _ _ _ h := h.decide_step
  seat _ _ _ _ _ h := h.seat_step

end Flowing

/-- The routing invariant of a knockout draw in the middle of a cascade, whose stack `ps`
holds the moves still owed. -/
structure Routed (b : Bracket) (ps : List Pending) : Prop where
  wired : b.Wired
  textual : ∀ q ∈ b.positions, (b.game q).team1.Textual ∧ (b.game q).team2.Textual
  decided : ∀ p ∈ b.positions, (b.game p).isCompleted = true → p ∉ Pending.decisions ps →
    (b.game p).Decided
  unplayed : ∀ p ∈ b.positions, ((b.game p).isCompleted = false ∨ p ∈ Pending.decisions ps) →
    (b.game p).winner = .null ∧ (b.game p).loser = .null
  balanced : ∀ q ∈ b.positions, 0 < q.round → (b.game q).sides + b.owed ps q = b.inflow q
  seats : ∀ p k x, .seat p k x ∈ ps → p ∈ b.positions ∧ (b.game p).isCompleted = true ∧
    (∃ q, b.dest p k = some q) ∧ x = (b.game p).mover k ∧ x.truthy = true
  decisions : ∀ p w, .decide p w ∈ ps → p ∈ b.positions ∧ (b.game p).team1 ≠ .null ∧
    (b.game p).team2 ≠ .null ∧ (w = (b.game p).team1 ∨ w = (b.game p).team2)
  nodup : (Pending.decisions ps).Nodup
  first : (b.firstSides.filter fun v => !v.eqv (.str byeTeam)).Nodup

namespace Routed

variable {b b' : Bracket} {ps : List Pending}

theorem toFlowing (h : Routed b ps) : Flowing b ps :=
  ⟨h.wired, h.textual, h.decided, h.unplayed, h.balanced, h.seats, h.decisions, h.nodup⟩

theorem of_flowing (h : Flowing b ps)
    (hfirst : (b.firstSides.filter fun v => !v.eqv (.str byeTeam)).Nodup) : Routed b ps :=
  ⟨h.wired, h.textual, h.decided, h.unplayed, h.balanced, h.seats, h.decisions, h.nodup, hfirst⟩

/-- The invariant reads only the standing of matches and the links between them. -/
theorem congr (h : Routed b ps) (hw : b'.Wired) (hpos : b'.positions = b.positions)
    (hdest : ∀ p k, b'.dest p k = b.dest p k)
    (hst : ∀ p, (b'.game p).standing = (b.game p).standing) : Routed b' ps :=
  of_flowing (h.toFlowing.congr hw hpos hdest hst) (Bracket.firstSides_congr hpos hst ▸ h.first)

theorem markAt (h : Routed b ps) {q : Pos} (hq : q ∈ b.positions) : Routed (b.markAt q) ps :=
  h.congr h.wired.markAt (Bracket.positions_markAt) (fun _ _ => Bracket.dest_markAt _ _)
    fun p => by
      rw [Bracket.game_markAt hq]
      split
      · subst p; rfl
      · rfl

/-- A match that faces the bye can be owed its decision. -/
theorem push_decide (h : Routed b ps) {q : Pos} (hq : q ∈ b.positions)
    (hfresh : q ∉ Pending.decisions ps) {w : Value} (hw : (b.game q).byeWinner? = some w) :
    Routed b (.decide q w :: ps) :=
  of_flowing (h.toFlowing.push_decide hq hfresh hw) h.first

/-- After a team is seated in the match at `q`, the match settles: if it then faces the bye it
is marked and its decision is owed. -/
theorem settles (h : Routed b ps) {q : Pos} (hq : q ∈ b.positions)
    (hfresh : q ∉ Pending.decisions ps) : Settles Routed b q ps := by
  unfold Settles
  split
  · next w hw => exact (h.push_decide hq hfresh hw).markAt hq
  · exact h

/-- Deciding the match owed on top of the stack keeps the invariant, with the seats of its
two teams owed in its place. -/
theorem decide_step {p : Pos} {w : Value} (h : Routed b (.decide p w :: ps)) :
    p ∈ b.positions ∧ Routed (b.decideAt p w) (b.seatsAfter p w ++ ps) := by
  obtain ⟨hp, hflow⟩ := h.toFlowing.decide_step
  exact ⟨hp, of_flowing hflow (by rw [Bracket.firstSides_decideAt hp]; exact h.first)⟩

/-- A team owed by the stack is a team of the match it leaves. -/
theorem seat_textual (h : Routed b ps) {p : Pos} {k : Link} {x : Value}
    (hx : .seat p k x ∈ ps) : x.Textual ∧ x ≠ .null :=
  h.toFlowing.seat_textual hx

/-- Seating the team owed on top of the stack keeps the invariant: the match its link leads
to has a free side, and settles once the team is seated. -/
theorem seat_step {p : Pos} {k : Link} {x : Value} (h : Routed b (.seat p k x :: ps)) :
    p ∈ b.positions ∧ ∃ q s, b.dest p k = some q ∧
      (b.game q).freeSide? (b.preferred p q) = some s ∧ Settles Routed (b.seatAt q x s) q ps := by
  obtain ⟨hp, q, s, hq, hs, hset⟩ := h.toFlowing.seat_step
  have hqpos := Bracket.mem_positions_of_dest h.wired hq
  have hr : 0 < q.round :=
    Nat.lt_of_le_of_lt (Nat.zero_le _) (Bracket.round_lt_of_dest h.wired hp hq)
  -- the seat and the bye check after it leave the first round as it was
  have hfirst : ((b.seatAt q x s).firstSides.filter fun v => !v.eqv (.str byeTeam)).Nodup := by
    rw [Bracket.firstSides_seatAt hqpos hr]
    exact h.first
  refine ⟨hp, q, s, hq, hs, ?_⟩
  unfold Settles at hset ⊢
  split
  · next w hw =>
    rw [hw] at hset
    refine of_flowing hset ?_
    rw [Bracket.firstSides_congr Bracket.positions_markAt fun p' => by
      rw [Bracket.game_markAt (by simpa using hqpos)]
      split
      · subst p'; rfl
      · rfl]
    exact hfirst
  · next hw =>
    rw [hw] at hset
    exact of_flowing hset hfirst

/-- The routing invariant is an invariant of the cascade. -/
theorem cascade : Cascade Routed where
  wired _ _ h := h.wired
  decide _ _ _ _ h := h.decide_step
  seat _ _ _ _ _ h := h.seat_step

end Routed

end TournamentDraw
