import TournamentDraw.Proofs.Reachable

/-!
# Which side a team takes

The routing invariant counts the teams of a match without asking which side each stands on.
Read side by side it says more: each side of a match beyond the first round is reached by one
link at most, and holds the team that link sent. A team moving along a link therefore always
finds the side its link arrives at free, and takes it: the side its match prefers, or, for a
loser sent on to the match its winner went to, the other one, since the winner is seated first.

`Slotted` is this reading, as an invariant of the cascade. It holds of a draw as generated and
of one whose first round is seated, survives the byes passing on, and a verdict that completes
an open match leaves it with that match's decision owed.
-/

open scoped BigOperators

namespace TournamentDraw

namespace Match

/-- The team on a side of a match. -/
def onSide (m : Match) : Side → Value
  | .first => m.team1
  | .second => m.team2

/-- The team on a side of a match, as a multiset: nothing for an empty side. -/
def sideOn (m : Match) (s : Side) : Multiset Value :=
  if (m.onSide s).isNull then 0 else {m.onSide s}

theorem sideOn_eq_zero {m : Match} {s : Side} : m.sideOn s = 0 ↔ (m.onSide s).isNull = true := by
  unfold sideOn
  split <;> simp_all

@[simp] theorem onSide_seatOn_self (m : Match) (x : Value) (s : Side) : (m.seatOn x s).onSide s = x := by
  cases s <;> rfl

theorem onSide_seatOn_other (m : Match) (x : Value) (s : Side) :
    (m.seatOn x s).onSide s.other = m.onSide s.other := by
  cases s <;> rfl

theorem other_ne (s : Side) : s.other ≠ s := by
  cases s <;> decide

theorem eq_other_of_ne {s s' : Side} (h : s' ≠ s) : s' = s.other := by
  cases s <;> cases s' <;> first | rfl | exact absurd rfl h

theorem sideOn_seatOn {m : Match} {s : Side} (x : Value) (s' : Side) :
    (m.seatOn x s).sideOn s' = if s' = s then (if x.isNull then 0 else {x}) else m.sideOn s' := by
  split
  · next he =>
    subst he
    simp only [sideOn, onSide_seatOn_self]
  · next hne =>
    rw [eq_other_of_ne hne]
    simp only [sideOn, onSide_seatOn_other]

/-- The side a moving team takes: the preferred one while it is free, else the other one. -/
theorem freeSide?_eq_some {m : Match} {side s : Side} (h : m.freeSide? side = some s) :
    ((m.onSide side).isNull = true ∧ s = side) ∨
      ((m.onSide side).isNull = false ∧ (m.onSide side.other).isNull = true ∧ s = side.other) := by
  unfold freeSide? at h
  cases side <;> cases h1 : m.team1.isNull <;> cases h2 : m.team2.isNull <;>
    simp only [h1, h2, Option.some.injEq, reduceCtorEq] at h <;> subst h <;>
    simp [onSide, Side.other, h1, h2]

end Match

namespace Bracket

section Flow

variable {b : Bracket} {p q : Pos}

/-- The team that the match at `p` sent along link `k` onto side `s` of the match at `q`. -/
def sentOn (b : Bracket) (p : Pos) (k : Link) (q : Pos) (s : Side) : Multiset Value :=
  if b.arrival p k = s then b.sent p k q else 0

/-- Every team sent onto side `s` of the match at `q`. -/
def inflowOn (b : Bracket) (q : Pos) (s : Side) : Multiset Value :=
  ∑ p ∈ b.positions, (b.sentOn p .next q s + b.sentOn p .loserNext q s)

/-- The team a pending move still owes to side `s` of the match at `q`. -/
def owesOn (b : Bracket) (q : Pos) (s : Side) : Pending → Option Value
  | .seat p k x => if b.dest p k = some q ∧ b.arrival p k = s then some x else none
  | .decide .. => none

/-- The teams a stack of pending moves still owes to side `s` of the match at `q`. -/
def owedOn (b : Bracket) (ps : List Pending) (q : Pos) (s : Side) : Multiset Value :=
  (ps.filterMap (b.owesOn q s) : Multiset Value)

@[simp] theorem owedOn_nil (s : Side) : b.owedOn [] q s = 0 := rfl

@[simp] theorem owedOn_cons_decide (ps : List Pending) (w : Value) (s : Side) :
    b.owedOn (.decide p w :: ps) q s = b.owedOn ps q s := rfl

theorem owedOn_cons_seat (k : Link) (x : Value) (ps : List Pending) (s : Side) :
    b.owedOn (.seat p k x :: ps) q s =
      if b.dest p k = some q ∧ b.arrival p k = s then x ::ₘ b.owedOn ps q s
      else b.owedOn ps q s := by
  by_cases hd : b.dest p k = some q ∧ b.arrival p k = s <;> simp [owedOn, owesOn, hd]

@[simp] theorem owedOn_append (ps qs : List Pending) (s : Side) :
    b.owedOn (ps ++ qs) q s = b.owedOn ps q s + b.owedOn qs q s := by
  simp [owedOn, List.filterMap_append]

/-- One link at most arrives at a side, so at most one team is sent onto it. -/
theorem card_inflowOn_le (hw : b.Wired) (q : Pos) (s : Side) :
    Multiset.card (b.inflowOn q s) ≤ 1 := by
  classical
  let links : Finset Link := {.next, .loserNext}
  let feeders := (b.positions ×ˢ links).filter fun x => b.dest x.1 x.2 = some q ∧ b.arrival x.1 x.2 = s
  have hfeeders : feeders.card ≤ 1 := by
    refine Finset.card_le_one.2 fun x hx y hy => ?_
    simp only [feeders, Finset.mem_filter] at hx hy
    obtain ⟨h1, h2⟩ := hw.sides q x.1 x.2 y.1 y.2 hx.2.1 hy.2.1 (hx.2.2.trans hy.2.2.symm)
    exact Prod.ext h1 h2
  have hterm : ∀ p k, Multiset.card (b.sentOn p k q s) ≤
      if b.dest p k = some q ∧ b.arrival p k = s then 1 else 0 := by
    intro p k
    unfold sentOn
    by_cases ha : b.arrival p k = s
    · have := card_sent_le (b := b) p k q
      by_cases hd : b.dest p k = some q <;> simp_all
    · simp [ha]
  calc Multiset.card (b.inflowOn q s)
      = ∑ p ∈ b.positions, (Multiset.card (b.sentOn p .next q s) +
          Multiset.card (b.sentOn p .loserNext q s)) := by
        simp [inflowOn, Multiset.card_sum]
    _ ≤ ∑ p ∈ b.positions, ((if b.dest p .next = some q ∧ b.arrival p .next = s then 1 else 0) +
          (if b.dest p .loserNext = some q ∧ b.arrival p .loserNext = s then 1 else 0)) :=
        Finset.sum_le_sum fun p _ => add_le_add (hterm p _) (hterm p _)
    _ = feeders.card := by
        rw [Finset.card_filter, Finset.sum_product]
        refine Finset.sum_congr rfl fun p _ => ?_
        rw [Finset.sum_pair (by decide)]
    _ ≤ 1 := hfeeders

theorem sentOn_seatAt (hq : q ∈ b.positions) (x : Value) (s : Side) (p' : Pos) (k : Link)
    (q' : Pos) (s' : Side) : (b.seatAt q x s).sentOn p' k q' s' = b.sentOn p' k q' s' := by
  simp only [sentOn, arrival_seatAt, sent_seatAt hq]

theorem inflowOn_seatAt (hq : q ∈ b.positions) (x : Value) (s : Side) (q' : Pos) (s' : Side) :
    (b.seatAt q x s).inflowOn q' s' = b.inflowOn q' s' := by
  simp only [inflowOn, positions_seatAt, sentOn_seatAt hq]

theorem owedOn_congr {b' : Bracket} (hdest : ∀ p k, b'.dest p k = b.dest p k)
    (harr : ∀ p k, b'.arrival p k = b.arrival p k) (ps : List Pending) (q : Pos) (s : Side) :
    b'.owedOn ps q s = b.owedOn ps q s := by
  have : b'.owesOn q s = b.owesOn q s := by
    funext x
    cases x <;> simp only [owesOn, hdest, harr]
  rw [owedOn, owedOn, this]

theorem inflowOn_decideAt {w : Value} (hp : p ∈ b.positions)
    (hnull : (b.game p).winner = .null ∧ (b.game p).loser = .null) (q : Pos) (s : Side) :
    (b.decideAt p w).inflowOn q s = b.inflowOn q s +
      ((b.decideAt p w).sentOn p .next q s + (b.decideAt p w).sentOn p .loserNext q s) := by
  have hoff : ∀ x ∈ b.positions, x ≠ p →
      b.sentOn x .next q s + b.sentOn x .loserNext q s =
        (b.decideAt p w).sentOn x .next q s + (b.decideAt p w).sentOn x .loserNext q s := by
    intro x _ hx
    simp only [sentOn, sent, arrival_decideAt, dest_decideAt, game_decideAt hp, if_neg hx]
  have := sum_add_eq_of_eq_off hp hoff
  have hzero : ∀ k, b.sentOn p k q s = 0 := fun k => by simp [sentOn, sent_of_null hnull]
  simp only [hzero, add_zero] at this
  rw [inflowOn, inflowOn, positions_decideAt, ← this]

theorem owedOn_seatsAfter {w : Value} (hw : b.Wired) (hp : p ∈ b.positions) (q : Pos) (s : Side) :
    b.owedOn (b.seatsAfter p w) q s =
      (b.decideAt p w).sentOn p .next q s + (b.decideAt p w).sentOn p .loserNext q s := by
  have link : ∀ (k : Link) (x : Value), b.owedOn (if ((b.game p).target k).truthy ∧ x.truthy then
      [.seat p k x] else []) q s =
        if b.arrival p k = s then (if b.dest p k = some q ∧ x.truthy then {x} else 0) else 0 := by
    intro k x
    by_cases hd : b.dest p k = some q
    · have ht := dest_truthy hw hd
      by_cases hx : x.truthy = true <;> by_cases ha : b.arrival p k = s <;>
        simp [ht, hx, hd, ha, owedOn_cons_seat]
    · split <;> split <;> simp [hd, owedOn_cons_seat]
  rw [seatsAfter, owedOn_append]
  refine (congrArg₂ (· + ·) (link .next w) (link .loserNext ((b.game p).loserFor w))).trans ?_
  simp only [sentOn, arrival_decideAt, sent_decideAt_self hp, Match.mover, Match.decidedFor]
  rfl

theorem sentOn_congr {b' : Bracket} (hdest : ∀ p k, b'.dest p k = b.dest p k)
    (harr : ∀ p k, b'.arrival p k = b.arrival p k)
    (hst : ∀ p, (b'.game p).standing = (b.game p).standing) (p : Pos) (k : Link) (q : Pos)
    (s : Side) : b'.sentOn p k q s = b.sentOn p k q s := by
  simp only [sentOn, harr, sent_congr hdest hst]

theorem inflowOn_congr {b' : Bracket} (hpos : b'.positions = b.positions)
    (hdest : ∀ p k, b'.dest p k = b.dest p k) (harr : ∀ p k, b'.arrival p k = b.arrival p k)
    (hst : ∀ p, (b'.game p).standing = (b.game p).standing) (q : Pos) (s : Side) :
    b'.inflowOn q s = b.inflowOn q s := by
  simp only [inflowOn, hpos, sentOn_congr hdest harr hst]

theorem le_inflowOn {p : Pos} (hp : p ∈ b.positions) (k : Link) (q : Pos) (s : Side) :
    b.sentOn p k q s ≤ b.inflowOn q s := by
  refine le_trans ?_ (Finset.single_le_sum (f := fun p' => b.sentOn p' .next q s +
    b.sentOn p' .loserNext q s) (fun _ _ => Multiset.zero_le _) hp)
  cases k
  · exact Multiset.le_add_right _ _
  · exact Multiset.le_add_left _ _

end Flow

end Bracket

namespace Match

theorem sideOn_congr {m m' : Match} (h : m'.standing = m.standing) (s : Side) :
    m'.sideOn s = m.sideOn s := by
  simp only [standing, Prod.mk.injEq] at h
  have hon : m'.onSide s = m.onSide s := by
    cases s
    · exact h.1
    · exact h.2.1
  unfold sideOn
  rw [hon]

end Match

namespace Routed

variable {b : Bracket} {ps : List Pending} {p : Pos} {k : Link} {x : Value}

/-- A match whose team the cascade owes is decided, so both its teams move. -/
theorem mover_truthy_of_seat (h : Routed b ps) (hx : .seat p k x ∈ ps) (k' : Link) :
    ((b.game p).mover k').truthy = true := by
  obtain ⟨hp, hc, -, rfl, hxt⟩ := h.seats p k _ hx
  have hfresh : p ∉ Pending.decisions ps := by
    intro hd
    have hnull := h.unplayed p hp (.inr hd)
    cases k <;> simp [Match.mover, hnull, Value.truthy] at hxt
  obtain ⟨n1, n2, hwl⟩ := h.decided p hp hc hfresh
  obtain ⟨t1, t2⟩ := h.textual p hp
  have hmem : (b.game p).mover k' = (b.game p).team1 ∨ (b.game p).mover k' = (b.game p).team2 := by
    cases k' <;> rcases hwl with ⟨hw, hl⟩ | ⟨hw, hl⟩ <;> simp [Match.mover, hw, hl]
  rcases hmem with he | he
  · rw [he]
    exact t1.truthy_iff.2 n1
  · rw [he]
    exact t2.truthy_iff.2 n2

end Routed

/-- Each side of a match beyond the first round holds what the link arriving there sent,
less what the stack still owes it. -/
def Bracket.SidesSent (b : Bracket) (ps : List Pending) : Prop :=
  ∀ q ∈ b.positions, 0 < q.round → ∀ s, (b.game q).sideOn s + b.owedOn ps q s = b.inflowOn q s

/-- A loser owed to a match is owed below its winner: the winner is seated first. -/
def Pending.WinnersFirst (ps : List Pending) : Prop :=
  ∀ p x y l, (.seat p .loserNext x :: l) <:+ ps → .seat p .next y ∉ l

theorem Pending.winnersFirst_nil : Pending.WinnersFirst [] := by
  intro p x y l hl
  exact absurd (List.IsSuffix.length_le hl) (by simp)

theorem Pending.WinnersFirst.cons_decide {ps : List Pending} (h : Pending.WinnersFirst ps)
    (q : Pos) (w : Value) : Pending.WinnersFirst (.decide q w :: ps) := by
  intro p x y l hl
  rcases List.suffix_cons_iff.1 hl with he | hl
  · cases he
  · exact h p x y l hl

theorem Pending.WinnersFirst.of_cons {ps : List Pending} {a : Pending}
    (h : Pending.WinnersFirst (a :: ps)) : Pending.WinnersFirst ps :=
  fun p x y l hl => h p x y l (hl.trans (List.suffix_cons a ps))

/-- The routing invariant side by side. Each side of a match beyond the first round holds the
team that the link arriving there sent, once the cascade no longer owes it; and a loser owed
to the match its winner went to is owed below the winner, so that the winner is seated first. -/
structure Slotted (b : Bracket) (ps : List Pending) : Prop where
  routed : Routed b ps
  exact : b.SidesSent ps
  ordered : Pending.WinnersFirst ps

namespace Bracket

variable {b : Bracket} {ps : List Pending} {p q : Pos}

theorem SidesSent.markAt (h : b.SidesSent ps) (hq : q ∈ b.positions) : (b.markAt q).SidesSent ps := by
  have hst : ∀ p, ((b.markAt q).game p).standing = (b.game p).standing := fun p => by
    rw [game_markAt hq]
    split
    · subst p; rfl
    · rfl
  intro q' hq' hr s
  rw [Match.sideOn_congr (hst q') s, owedOn_congr (fun _ _ => dest_markAt _ _)
    (fun _ _ => arrival_markAt _ _), inflowOn_congr positions_markAt (fun _ _ => dest_markAt _ _)
    (fun _ _ => arrival_markAt _ _) hst]
  exact h q' (by simpa using hq') hr s

theorem SidesSent.congr {b' : Bracket} (h : b.SidesSent ps) (hpos : b'.positions = b.positions)
    (hdest : ∀ p k, b'.dest p k = b.dest p k) (harr : ∀ p k, b'.arrival p k = b.arrival p k)
    (hside : ∀ q s, (b'.game q).sideOn s = (b.game q).sideOn s)
    (hsent : ∀ p k q, b'.sent p k q = b.sent p k q) : b'.SidesSent ps := by
  intro q hq hr s
  rw [hside, owedOn_congr hdest harr]
  have hin : b'.inflowOn q s = b.inflowOn q s := by
    simp only [inflowOn, sentOn, hpos, harr, hsent]
  rw [hin]
  exact h q (hpos ▸ hq) hr s

/-- Changing a match in what the invariant does not read keeps its sides. -/
theorem SidesSent.modifyAt {f : Match → Match} (h : b.SidesSent ps) (hf : Match.KeepsLinks f)
    (hs : ∀ m, (f m).standing = m.standing) (q : Pos) : (b.modifyAt q f).SidesSent ps := by
  have hst : ∀ p, ((b.modifyAt q f).game p).standing = (b.game p).standing := fun p => by
    simp only [game, matchAt?_modifyAt]
    split
    · cases b.matchAt? p with
      | none => rfl
      | some m => exact hs m
    · rfl
  exact h.congr (positions_modifyAt _ _ _) (fun _ _ => dest_modifyAt hf _ _)
    (fun _ _ => arrival_modifyAt hf _ _) (fun q s => Match.sideOn_congr (hst q) s)
    (fun p k q => sent_congr (fun _ _ => dest_modifyAt hf _ _) hst p k q)

theorem SidesSent.cons_decide (h : b.SidesSent ps) (q : Pos) (w : Value) :
    b.SidesSent (.decide q w :: ps) := by
  intro q' hq' hr s
  rw [owedOn_cons_decide]
  exact h q' hq' hr s

end Bracket

namespace Slotted

open TournamentDraw.Bracket

variable {b : Bracket} {ps : List Pending} {p q : Pos}

theorem markAt (h : Slotted b ps) (hq : q ∈ b.positions) : Slotted (b.markAt q) ps :=
  ⟨h.routed.markAt hq, h.exact.markAt hq, h.ordered⟩

theorem push_decide (h : Slotted b ps) (hq : q ∈ b.positions)
    (hfresh : q ∉ Pending.decisions ps) {w : Value} (hw : (b.game q).byeWinner? = some w) :
    Slotted b (.decide q w :: ps) :=
  ⟨h.routed.push_decide hq hfresh hw, h.exact.cons_decide q w, h.ordered.cons_decide q w⟩

/-- A match settles side by side as it settles for the routing invariant, when its sides hold
what was sent to them. -/
theorem settles_of_routed (hR : Settles Routed b q ps) (hq : q ∈ b.positions)
    (hex : b.SidesSent ps) (hord : Pending.WinnersFirst ps) : Settles Slotted b q ps := by
  unfold Settles at hR ⊢
  split at hR
  · next w _ => exact ⟨hR, (hex.cons_decide q w).markAt hq, hord.cons_decide q w⟩
  · exact ⟨hR, hex, hord⟩

/-- After a team is seated in the match at `q`, the match settles, side by side. -/
theorem settles (h : Slotted b ps) (hq : q ∈ b.positions) (hfresh : q ∉ Pending.decisions ps) :
    Settles Slotted b q ps :=
  settles_of_routed (h.routed.settles hq hfresh) hq h.exact h.ordered

/-- The seats owed once a match is decided come on top of the stack, the winner's first. -/
theorem suffix_seatsAfter {w x : Value} {p' : Pos} {l : List Pending}
    (hl : (.seat p' .loserNext x :: l) <:+ b.seatsAfter p w ++ ps) :
    (.seat p' .loserNext x :: l) <:+ ps ∨ (p' = p ∧ l = ps) := by
  unfold seatsAfter at hl
  split_ifs at hl <;>
    simp only [List.cons_append, List.nil_append, List.suffix_cons_iff, List.cons.injEq,
      Pending.seat.injEq, reduceCtorEq, and_false, false_and, false_or] at hl
  · rcases hl with ⟨⟨rfl, -⟩, rfl⟩ | hl
    · exact .inr ⟨rfl, rfl⟩
    · exact .inl hl
  · exact .inl hl
  · rcases hl with ⟨⟨rfl, -⟩, rfl⟩ | hl
    · exact .inr ⟨rfl, rfl⟩
    · exact .inl hl
  · exact .inl hl

/-- Deciding the match owed on top of the stack keeps the invariant side by side. -/
theorem decide_step {w : Value} (h : Slotted b (.decide p w :: ps)) :
    p ∈ b.positions ∧ Slotted (b.decideAt p w) (b.seatsAfter p w ++ ps) := by
  obtain ⟨hp, hR⟩ := h.routed.decide_step
  have hnull := h.routed.unplayed p hp (.inr List.mem_cons_self)
  refine ⟨hp, hR, fun q hq hr s => ?_, fun p' x y l hl => ?_⟩
  · have hq' : q ∈ b.positions := by simpa using hq
    have hex := h.exact q hq' hr s
    rw [owedOn_cons_decide] at hex
    have hside : ((b.decideAt p w).game q).sideOn s = (b.game q).sideOn s := by
      rw [game_decideAt hp]
      split
      · subst q; rfl
      · rfl
    rw [hside, owedOn_append, owedOn_congr (fun _ _ => dest_decideAt w _ _)
      (fun _ _ => arrival_decideAt w _ _), owedOn_congr (fun _ _ => dest_decideAt w _ _)
      (fun _ _ => arrival_decideAt w _ _) ps, owedOn_seatsAfter h.routed.wired hp,
      inflowOn_decideAt hp hnull, ← hex]
    ac_rfl
  · rcases suffix_seatsAfter hl with hl | ⟨rfl, rfl⟩
    · exact h.ordered p' x y l (hl.trans (List.suffix_cons _ _))
    · -- the match just decided owed nothing before: its teams had not moved
      intro hy
      have := h.routed.seats p' .next y (List.mem_cons_of_mem _ hy)
      have hxt := this.2.2.2.2
      rw [this.2.2.2.1] at hxt
      simp [Match.mover, hnull, Value.truthy] at hxt

/-- The side that the team owed on top of the stack arrives at holds nothing yet. -/
theorem sideOn_arrival_eq_zero {k : Link} {x : Value} (h : Slotted b (.seat p k x :: ps))
    (hq : b.dest p k = some q) : (b.game q).sideOn (b.arrival p k) = 0 := by
  have hw := h.routed.wired
  have hp := (h.routed.seats p k x List.mem_cons_self).1
  have hqpos := mem_positions_of_dest hw hq
  have hr : 0 < q.round := Nat.lt_of_le_of_lt (Nat.zero_le _) (round_lt_of_dest hw hp hq)
  have hex := h.exact q hqpos hr (b.arrival p k)
  rw [owedOn_cons_seat, if_pos ⟨hq, rfl⟩] at hex
  have hcard := card_inflowOn_le hw q (b.arrival p k)
  rw [← hex, Multiset.card_add, Multiset.card_cons] at hcard
  exact Multiset.card_eq_zero.1 (by omega)

/-- **A moving team takes the side its link arrives at.** The side is free, since what the
stack owes it is all that was sent there; a loser sent to the match its winner went to finds
the preferred side taken by the winner, seated before it. -/
theorem arrival_of_seat {k : Link} {x : Value} (h : Slotted b (.seat p k x :: ps))
    (hq : b.dest p k = some q) {s : Side} (hs : (b.game q).freeSide? (b.preferred p q) = some s) :
    s = b.arrival p k := by
  have hw := h.routed.wired
  have hp := (h.routed.seats p k x List.mem_cons_self).1
  have hqpos := mem_positions_of_dest hw hq
  have hr : 0 < q.round := Nat.lt_of_le_of_lt (Nat.zero_le _) (round_lt_of_dest hw hp hq)
  have hfree : ((b.game q).onSide (b.arrival p k)).isNull = true :=
    Match.sideOn_eq_zero.1 (h.sideOn_arrival_eq_zero hq)
  by_cases hloser : k = .loserNext ∧ b.dest p .next = some q
  · obtain ⟨rfl, hnext⟩ := hloser
    have harr : b.arrival p .loserNext = (b.preferred p q).other := by
      simp [arrival, hq, hnext]
    have hwarr : b.arrival p .next = b.preferred p q := by
      simp [arrival, hnext]
    -- the winner already holds the preferred side
    have htaken : ((b.game q).onSide (b.preferred p q)).isNull = false := by
      have hex := h.exact q hqpos hr (b.preferred p q)
      have hnone : b.owedOn (.seat p .loserNext x :: ps) q (b.preferred p q) = 0 := by
        rw [owedOn_cons_seat, if_neg (by rw [harr]; exact fun h' => Match.other_ne _ h'.2)]
        refine (Multiset.coe_eq_zero _).2 (List.filterMap_eq_nil_iff.2 fun a ha => ?_)
        cases a with
        | decide => rfl
        | seat p' k' y =>
          simp only [owesOn]
          split
          · next hd =>
            obtain ⟨hpp, hkk⟩ := hw.sides q p' k' p .next hd.1 hnext (hd.2.trans hwarr.symm)
            rw [hpp, hkk] at ha
            exact absurd ha (h.ordered p x y ps List.suffix_rfl)
          · rfl
      have hsent : b.sentOn p .next q (b.preferred p q) = {(b.game p).winner} := by
        have ht := h.routed.mover_truthy_of_seat List.mem_cons_self .next
        have hc := (h.routed.seats p .loserNext x List.mem_cons_self).2.1
        simp only [sentOn, hwarr, if_true, sent, hc, hnext, ht, and_self]
        rfl
      have hle := le_inflowOn (b := b) hp .next q (b.preferred p q)
      rw [hsent, ← hex, hnone, add_zero] at hle
      cases hn : ((b.game q).onSide (b.preferred p q)).isNull
      · rfl
      · simp [Match.sideOn, hn] at hle
    rcases Match.freeSide?_eq_some hs with ⟨h1, -⟩ | ⟨-, -, rfl⟩
    · rw [htaken] at h1
      cases h1
    · exact harr.symm
  · have harr : b.arrival p k = b.preferred p q := by
      simp only [arrival, hq]
      rw [if_neg hloser]
    rw [harr] at hfree ⊢
    rcases Match.freeSide?_eq_some hs with ⟨-, rfl⟩ | ⟨h1, -, -⟩
    · rfl
    · rw [hfree] at h1
      cases h1

/-- Seating the team owed on top of the stack keeps the invariant side by side: the team takes
the side its link arrives at. -/
theorem seat_step {k : Link} {x : Value} (h : Slotted b (.seat p k x :: ps)) :
    p ∈ b.positions ∧ ∃ q s, b.dest p k = some q ∧
      (b.game q).freeSide? (b.preferred p q) = some s ∧ Settles Slotted (b.seatAt q x s) q ps := by
  obtain ⟨hp, q, s, hq, hs, hset⟩ := h.routed.seat_step
  have has := h.arrival_of_seat hq hs
  have hqpos := mem_positions_of_dest h.routed.wired hq
  have hxnull : x.isNull = false :=
    Value.isNull_of_truthy (h.routed.seats p k x List.mem_cons_self).2.2.2.2
  refine ⟨hp, q, s, hq, hs, settles_of_routed hset (by simpa using hqpos) ?_ h.ordered.of_cons⟩
  intro q' hq' hr s'
  have hex := h.exact q' (by simpa using hq') hr s'
  rw [owedOn_cons_seat] at hex
  rw [inflowOn_seatAt hqpos, owedOn_congr (fun _ _ => dest_seatAt x s _ _)
    (fun _ _ => arrival_seatAt x s _ _), game_seatAt hqpos]
  split
  · next he =>
    subst he
    rw [Match.sideOn_seatOn]
    split
    · next hs' =>
      subst hs'
      rw [if_pos ⟨hq, has.symm⟩, has, h.sideOn_arrival_eq_zero hq, zero_add] at hex
      rw [has, hxnull, if_neg Bool.false_ne_true, Multiset.singleton_add]
      exact hex
    · next hne =>
      rwa [if_neg fun h' => hne (h'.2.symm.trans has.symm)] at hex
  · next hne =>
    rwa [if_neg fun h' => hne (Option.some.inj (h'.1.symm.trans hq))] at hex

/-- The routing invariant side by side is an invariant of the cascade. -/
theorem cascade : Cascade Slotted where
  wired _ _ h := h.routed.wired
  decide _ _ _ _ h := h.decide_step
  seat _ _ _ _ _ h := h.seat_step

/-- A slotted draw with nothing owed settles at any place. -/
theorem settles_any (h : Slotted b []) (q : Pos) : Settles Slotted b q [] := by
  by_cases hq : q ∈ b.positions
  · exact h.settles hq (by simp)
  · have hn : b.matchAt? q = none :=
      Option.not_isSome_iff_eq_none.1 fun h' => hq (mem_positions.2 h')
    unfold Settles
    rw [game, hn]
    exact h

/-- Deciding the match a slotted draw owes runs to the end and leaves it slotted. -/
theorem settle {w : Value} (h : Slotted b [.decide p w]) :
    ∃ b', Step.exec (Step.settle (b.knockoutCount + 1) p w) b = (.ok (), b') ∧ Slotted b' [] ∧
      b'.skeleton = b.skeleton := by
  have hfuel : b.skeleton.length ≤ b.knockoutCount + 1 + p.round := by
    have := h.routed.wired.length_le_knockoutCount
    simp only [skeleton, List.length_map]
    omega
  obtain ⟨b', hrun, hb'⟩ :=
    (cascade.withSkeleton b.skeleton).settle (fun _ _ h => h.2) _ p w b [] hfuel ⟨h, rfl⟩
  exact ⟨b', hrun, hb'⟩

/-- Resolving the byes leaves a slotted draw slotted, on the same skeleton. -/
theorem resolveByes (h : Slotted b []) :
    ∃ b', Step.exec Step.resolveByes b = (.ok (), b') ∧ Slotted b' [] ∧
      b'.skeleton = b.skeleton := by
  obtain ⟨b', hrun, hb'⟩ := Cascade.resolveByes
    (J := fun _ c ps => Slotted c ps ∧ c.skeleton = b.skeleton)
    (fun _ => cascade.withSkeleton _) (fun _ _ _ h => h.2)
    (fun x _ _ hx => (hx.1.settles_any x.1).withSkeleton hx.2) ⟨h, rfl⟩
  exact ⟨b', hrun, hb'⟩

/-- Scoring an open match changes no side and sends nothing. -/
theorem sidesSent_scored (h : Slotted b []) (hp : p ∈ b.positions)
    (hopen : (b.game p).isCompleted = false) (v : Verdict) : (b.scored p v).SidesSent [] := by
  have hnull := h.routed.unplayed p hp (.inl hopen)
  refine h.exact.congr (positions_modifyAt _ _ _) (fun _ _ => dest_modifyAt (keepsLinks_rescored v) _ _)
    (fun _ _ => arrival_modifyAt (keepsLinks_rescored v) _ _) (fun q s => ?_) (fun p' k q => ?_)
  · rw [game_scored hp]
    split
    · subst q; rfl
    · rfl
  · by_cases hp' : p' = p
    · subst hp'
      have hnull' : ((b.scored p' v).game p').winner = .null ∧
          ((b.scored p' v).game p').loser = .null := by
        rw [game_scored hp, if_pos rfl]
        exact hnull
      rw [sent_of_null hnull', sent_of_null hnull]
    · have hd : (b.scored p v).dest p' k = b.dest p' k := by
        rw [scored_eq]
        exact dest_modifyAt (keepsLinks_rescored v) _ _
      simp only [sent, hd, game_scored hp, if_neg hp']

/-- A verdict that completes an open match, recorded with its scores and any winner set by
hand, leaves the draw slotted with the match's decision owed. -/
theorem scored_open (h : Slotted b []) (hp : p ∈ b.positions)
    (hopen : (b.game p).isCompleted = false) {id : Value} {r : Result} {v : Verdict}
    (hj : (b.game p).judge id r = .ok v) (hs : v.status = .completed) :
    Slotted (if v.overrides r then (b.scored p v).overriddenAt p r.advancing else b.scored p v)
      [.decide p v.winner] := by
  have hS := h.sidesSent_scored hp hopen v
  have hR := h.routed.rescored hp (fun hc => by rw [hopen] at hc; cases hc) v (w := v.winner)
    fun hc => Match.judge_winner hj hc (h.routed.textual p hp).1 (h.routed.textual p hp).2
  simp only [hopen, Bool.false_eq_true, if_false, if_pos hs] at hR
  split
  · exact ⟨hR.overriddenAt p r.advancing,
      (hS.modifyAt (keepsLinks_override _) (fun _ => rfl) p).cons_decide p v.winner,
      Pending.winnersFirst_nil.cons_decide p v.winner⟩
  · exact ⟨hR, hS.cons_decide p v.winner, Pending.winnersFirst_nil.cons_decide p v.winner⟩

end Slotted

namespace Bracket

/-- Nothing has moved in a draw where no match is completed and no later match has a team. -/
theorem sidesSent_nil_of_unplayed {c : Bracket}
    (hopen : ∀ p ∈ c.positions, (c.game p).isCompleted = false)
    (hblank : ∀ q ∈ c.positions, 0 < q.round → (c.game q).team1 = .null ∧ (c.game q).team2 = .null) :
    c.SidesSent [] := by
  intro q hq hr s
  have hside : (c.game q).sideOn s = 0 := by
    obtain ⟨h1, h2⟩ := hblank q hq hr
    cases s <;> simp [Match.sideOn, Match.onSide, h1, h2, Value.isNull]
  have hin : c.inflowOn q s = 0 := Finset.sum_eq_zero fun p hp => by
    simp [sentOn, sent, hopen p hp]
  rw [hside, hin]
  rfl

namespace Fresh

variable {b : Bracket} {n w : Nat}

/-- A match beyond the first round of a fresh draw has no team. -/
theorem blank_later (hF : b.Fresh n w) {q : Pos} (hq : q ∈ b.positions) (hr : 0 < q.round) :
    (b.game q).team1 = .null ∧ (b.game q).team2 = .null := by
  obtain ⟨h1, h2, -⟩ := hF.blank q hq
  rw [if_neg (by omega)] at h2
  exact ⟨h1, h2⟩

theorem slotted (hF : b.Fresh n w) : Slotted b [] :=
  ⟨hF.routed, sidesSent_nil_of_unplayed (fun _ hp => (hF.unplayed hp).2.2)
    (fun _ hq hr => hF.blank_later hq hr), Pending.winnersFirst_nil⟩

theorem slotted_seatFirst (hF : b.Fresh n w) {ids : List String} (hnd : ids.Nodup)
    (hids : ∀ s ∈ ids, s ≠ "" ∧ s ≠ byeTeam) (hlen : ids.length = n) (hn : n ≤ 2 * w) :
    Slotted (b.seatFirst (ids.map .str)) [] := by
  have hpos := positions_seatFirst (b := b) (ids.map .str)
  refine ⟨hF.routed_seatFirst hnd hids hlen hn, sidesSent_nil_of_unplayed (fun p hp => ?_)
    (fun q hq hr => ?_), Pending.winnersFirst_nil⟩
  · exact (hF.unplayed_seatFirst _ (hpos ▸ hp)).2.2
  · rw [hF.game_seatFirst, if_neg (by omega)]
    exact hF.blank_later (hpos ▸ hq) hr

end Fresh

end Bracket

end TournamentDraw
