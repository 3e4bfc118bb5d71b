import TournamentDraw.Proofs.Run

/-!
# Wired knockout draws

A knockout draw is wired when it has no fixtures or groups, no round is empty, every match has
a distinct non-empty text as id, and each of its two links is either empty or names a match
of a later round. In such a draw a link leads to a place (`dest`), and a team moving along it
takes a side of the match there (`arrival`): the side its origin prefers, except that a loser
sent to the same match as its own winner takes the other side. A wired draw also asks that no
two links arrive at the same side of a match.

Every step on a knockout draw changes matches only through updates that keep ids and links,
so a wired draw stays wired.
-/

namespace TournamentDraw

/-- The two links of a match: the match its winner plays next, and the match its loser drops
into. -/
inductive Link where
  | next
  | loserNext
  deriving DecidableEq, Repr

/-- The other side of a match. -/
def Side.other : Side → Side
  | .first => .second
  | .second => .first

namespace Match

/-- The id of the match a link leads to. -/
def target (m : Match) : Link → Value
  | .next => m.next
  | .loserNext => m.loserNext

/-- The team that moves along a link once the match is decided. -/
def mover (m : Match) : Link → Value
  | .next => m.winner
  | .loserNext => m.loser

/-- The loser of the match when `w` wins it: the second side if `w` is the first, else the
first. -/
def loserFor (m : Match) (w : Value) : Value :=
  if w.eqv m.team1 then m.team2 else m.team1

/-- An update of matches that keeps their ids and links. -/
def KeepsLinks (f : Match → Match) : Prop :=
  ∀ m, (f m).id = m.id ∧ (f m).next = m.next ∧ (f m).loserNext = m.loserNext

theorem KeepsLinks.target {f : Match → Match} (h : KeepsLinks f) (m : Match) (k : Link) :
    (f m).target k = m.target k := by
  cases k
  · exact (h m).2.1
  · exact (h m).2.2

end Match

namespace Bracket

/-- The round at an index, the default round where there is none. -/
def roundOf (b : Bracket) (i : Nat) : Round := (b.rounds[i]?).getD default

/-- The place of the match that a link of the match at `p` leads to. -/
def dest (b : Bracket) (p : Pos) (k : Link) : Option Pos :=
  b.locate? ((b.game p).target k)

/-- The side that a team coming from the match at `p` prefers in the match at `q`. -/
def preferred (b : Bracket) (p q : Pos) : Side :=
  preferredSide (b.roundOf p.round) p.index (b.roundOf q.round)

/-- The side that a team moving along a link takes: the preferred one, but the other one for
a loser sent to the match its winner went to. -/
def arrival (b : Bracket) (p : Pos) (k : Link) : Side :=
  match b.dest p k with
  | none => .first
  | some q => if k = .loserNext ∧ b.dest p .next = some q then (b.preferred p q).other
      else b.preferred p q

/-- A knockout draw whose matches are found by their ids, whose links lead forward, and
whose links never arrive at the same side of a match. -/
structure Wired (b : Bracket) : Prop where
  fixtures_eq : b.fixtures = []
  groups_eq : b.groups = []
  games_ne : ∀ r ∈ b.rounds, r.games ≠ []
  named : ∀ p ∈ b.positions, ∃ s, (b.game p).id = .str s ∧ s ≠ ""
  unique : ∀ p ∈ b.positions, ∀ q ∈ b.positions, (b.game p).id = (b.game q).id → p = q
  linked : ∀ p ∈ b.positions, ∀ k, (b.game p).target k = .null ∨
    ∃ q ∈ b.positions, (b.game q).id = (b.game p).target k ∧ p.round < q.round
  sides : ∀ q p k p' k', b.dest p k = some q → b.dest p' k' = some q →
    b.arrival p k = b.arrival p' k' → p = p' ∧ k = k'

section Locate

variable {b : Bracket}

/-- In a draw whose matches are named by distinct non-empty texts, looking a value up finds the
match it names. -/
theorem locate?_eq_some_iff_of_named (hn : ∀ p ∈ b.positions, ∃ s, (b.game p).id = .str s ∧ s ≠ "")
    (hu : ∀ p ∈ b.positions, ∀ q ∈ b.positions, (b.game p).id = (b.game q).id → p = q)
    {v : Value} {q : Pos} : b.locate? v = some q ↔ q ∈ b.positions ∧ (b.game q).id = v := by
  constructor
  · intro h
    simp only [locate?, Option.map_eq_some_iff] at h
    obtain ⟨⟨q', m⟩, hfind, rfl⟩ := h
    have hmem := List.mem_reverse.1 (List.mem_of_find?_eq_some hfind)
    have hv := List.find?_some hfind
    obtain ⟨hq, rfl⟩ := mem_knockoutPlaces_iff.1 hmem
    obtain ⟨s, hs, -⟩ := hn q' hq
    rw [hs] at hv ⊢
    exact ⟨hq, (Value.eqv_str_iff.1 hv).symm⟩
  · rintro ⟨hq, rfl⟩
    obtain ⟨s, hs, -⟩ := hn q hq
    have hq' : (q, b.game q) ∈ b.knockoutPlaces.reverse :=
      List.mem_reverse.2 (mem_knockoutPlaces_iff.2 ⟨hq, rfl⟩)
    cases hfind : b.knockoutPlaces.reverse.find? (·.2.id.eqv (b.game q).id) with
    | none =>
      have := List.find?_eq_none.1 hfind _ hq'
      simp [hs, Value.eqv] at this
    | some x =>
      obtain ⟨q', m⟩ := x
      have hmem := List.mem_reverse.1 (List.mem_of_find?_eq_some hfind)
      have hv := List.find?_some hfind
      obtain ⟨hq'', rfl⟩ := mem_knockoutPlaces_iff.1 hmem
      obtain ⟨s', hs', -⟩ := hn q' hq''
      simp only [hs', hs, Value.eqv_str_iff, Value.str.injEq] at hv
      have : q' = q := hu q' hq'' q hq (by rw [hs', hs, hv])
      simp [locate?, hfind, this]

theorem locate?_eq_some_iff (hw : b.Wired) {v : Value} {q : Pos} :
    b.locate? v = some q ↔ q ∈ b.positions ∧ (b.game q).id = v :=
  locate?_eq_some_iff_of_named hw.named hw.unique

theorem locate?_id (hw : b.Wired) {q : Pos} (hq : q ∈ b.positions) :
    b.locate? (b.game q).id = some q :=
  (locate?_eq_some_iff hw).2 ⟨hq, rfl⟩

theorem dest_eq_some_iff (hw : b.Wired) {p q : Pos} {k : Link} :
    b.dest p k = some q ↔ q ∈ b.positions ∧ (b.game q).id = (b.game p).target k :=
  locate?_eq_some_iff hw

theorem dest_eq_none_iff (hw : b.Wired) {p : Pos} (hp : p ∈ b.positions) {k : Link} :
    b.dest p k = none ↔ (b.game p).target k = .null := by
  constructor
  · intro h
    rcases hw.linked p hp k with hnull | ⟨q, hq, hid, -⟩
    · exact hnull
    · have := (dest_eq_some_iff hw).2 ⟨hq, hid⟩
      simp [h] at this
  · intro h
    cases hd : b.dest p k with
    | none => rfl
    | some q =>
      obtain ⟨hq, hid⟩ := (dest_eq_some_iff hw).1 hd
      obtain ⟨s, hs, -⟩ := hw.named q hq
      rw [h, hs] at hid
      cases hid

theorem mem_positions_of_dest (hw : b.Wired) {p q : Pos} {k : Link} (h : b.dest p k = some q) :
    q ∈ b.positions :=
  ((dest_eq_some_iff hw).1 h).1

theorem round_lt_of_dest (hw : b.Wired) {p q : Pos} {k : Link} (hp : p ∈ b.positions)
    (h : b.dest p k = some q) : p.round < q.round := by
  obtain ⟨hq, hid⟩ := (dest_eq_some_iff hw).1 h
  rcases hw.linked p hp k with hnull | ⟨q', hq', hid', hlt⟩
  · obtain ⟨s, hs, -⟩ := hw.named q hq
    rw [hnull, hs] at hid
    cases hid
  · rwa [hw.unique q hq q' hq' (hid.trans hid'.symm)]

/-- A link that is a true value leads to a place. -/
theorem dest_of_truthy (hw : b.Wired) {p : Pos} (hp : p ∈ b.positions) {k : Link}
    (h : ((b.game p).target k).truthy = true) : ∃ q, b.dest p k = some q := by
  cases hd : b.dest p k with
  | none =>
    rw [(dest_eq_none_iff hw hp).1 hd] at h
    cases h
  | some q => exact ⟨q, rfl⟩

theorem dest_truthy (hw : b.Wired) {p q : Pos} {k : Link} (h : b.dest p k = some q) :
    ((b.game p).target k).truthy = true := by
  obtain ⟨hq, hid⟩ := (dest_eq_some_iff hw).1 h
  obtain ⟨s, hs, hne⟩ := hw.named q hq
  rw [← hid, hs, Value.truthy_str]
  simpa using hne

theorem findRef?_eq (hw : b.Wired) (v : Value) :
    b.findRef? v = (b.locate? v).map MatchRef.knockout := by
  cases hl : b.locate? v with
  | some q =>
    obtain ⟨hq, rfl⟩ := (locate?_eq_some_iff hw).1 hl
    obtain ⟨s, hs, -⟩ := hw.named q hq
    have hq' : (q, b.game q) ∈ b.knockoutPlaces := mem_knockoutPlaces_iff.2 ⟨hq, rfl⟩
    simp only [findRef?, places, hw.fixtures_eq, hw.groups_eq, List.zipIdx_nil, List.map_nil,
      List.append_nil, List.flatMap_nil, List.find?_map, Option.map_map, Option.map_some]
    cases hfind : b.knockoutPlaces.find? ((·.2.id.eqv (b.game q).id) ∘
        fun x => (MatchRef.knockout x.1, x.2)) with
    | none =>
      have := List.find?_eq_none.1 hfind _ hq'
      simp [hs, Value.eqv] at this
    | some x =>
      obtain ⟨q', m⟩ := x
      have hmem := List.mem_of_find?_eq_some hfind
      have hv := List.find?_some hfind
      obtain ⟨hq'', rfl⟩ := mem_knockoutPlaces_iff.1 hmem
      obtain ⟨s', hs', -⟩ := hw.named q' hq''
      simp only [Function.comp_apply, hs', hs, Value.eqv_str_iff, Value.str.injEq] at hv
      have : q' = q := hw.unique q' hq'' q hq (by rw [hs', hs, hv])
      simp [this]
  | none =>
    simp only [findRef?, places, hw.fixtures_eq, hw.groups_eq, List.zipIdx_nil, List.map_nil,
      List.append_nil, List.flatMap_nil, List.find?_map, Option.map_map, Option.map_none,
      Option.map_eq_none_iff]
    apply List.find?_eq_none.2
    rintro ⟨q, m⟩ hmem
    obtain ⟨hq, rfl⟩ := mem_knockoutPlaces_iff.1 hmem
    intro hv
    obtain ⟨s, hs, -⟩ := hw.named q hq
    simp only [Function.comp_apply, hs, Value.eqv_str_iff] at hv
    have := (locate?_eq_some_iff hw).2 ⟨hq, hs.trans hv.symm⟩
    rw [hl] at this
    cases this

end Locate

section Keep

variable {b : Bracket} {p : Pos} {f : Match → Match}

theorem game_id_modifyAt (hf : Match.KeepsLinks f) (q : Pos) :
    ((b.modifyAt p f).game q).id = (b.game q).id := by
  by_cases hq : q = p
  · subst hq
    by_cases hp : q ∈ b.positions
    · rw [game_modifyAt_self f hp, (hf _).1]
    · have : q ∉ (b.modifyAt q f).positions := by rwa [positions_modifyAt]
      rw [mem_positions, Option.not_isSome_iff_eq_none] at hp this
      simp [game, hp, this]
  · rw [game_modifyAt_ne b f hq]

theorem game_target_modifyAt (hf : Match.KeepsLinks f) (q : Pos) (k : Link) :
    ((b.modifyAt p f).game q).target k = (b.game q).target k := by
  by_cases hq : q = p
  · subst hq
    by_cases hp : q ∈ b.positions
    · rw [game_modifyAt_self f hp, hf.target]
    · have : q ∉ (b.modifyAt q f).positions := by rwa [positions_modifyAt]
      rw [mem_positions, Option.not_isSome_iff_eq_none] at hp this
      simp [game, hp, this]
  · rw [game_modifyAt_ne b f hq]

theorem locate?_modifyAt (hf : Match.KeepsLinks f) (v : Value) :
    (b.modifyAt p f).locate? v = b.locate? v := by
  simp only [locate?, knockoutPlaces_modifyAt, ← List.map_reverse, List.find?_map,
    Option.map_map]
  have hpred : ((fun x : Pos × Match => x.2.id.eqv v) ∘
      fun x => if x.1 = p then (x.1, f x.2) else x) = fun x => x.2.id.eqv v := by
    funext x
    simp only [Function.comp_apply]
    split <;> simp [(hf _).1]
  have hfst : (Prod.fst ∘ fun x : Pos × Match => if x.1 = p then (x.1, f x.2) else x) =
      Prod.fst := by
    funext x
    simp only [Function.comp_apply]
    split <;> rfl
  rw [hpred, hfst]

theorem dest_modifyAt (hf : Match.KeepsLinks f) (q : Pos) (k : Link) :
    (b.modifyAt p f).dest q k = b.dest q k := by
  rw [dest, dest, game_target_modifyAt hf, locate?_modifyAt hf]

theorem roundOf_modifyAt_lane (i : Nat) :
    ((b.modifyAt p f).roundOf i).lane = (b.roundOf i).lane := by
  simp only [roundOf, modifyAt, List.getElem?_modify]
  split <;> cases b.rounds[i]? <;> rfl

theorem roundOf_modifyAt_length (i : Nat) :
    ((b.modifyAt p f).roundOf i).games.length = (b.roundOf i).games.length := by
  simp only [roundOf, modifyAt, List.getElem?_modify]
  split <;> cases b.rounds[i]? <;> simp

theorem preferred_modifyAt (q q' : Pos) :
    (b.modifyAt p f).preferred q q' = b.preferred q q' := by
  simp only [preferred, preferredSide, roundOf_modifyAt_lane, roundOf_modifyAt_length]

theorem arrival_modifyAt (hf : Match.KeepsLinks f) (q : Pos) (k : Link) :
    (b.modifyAt p f).arrival q k = b.arrival q k := by
  simp only [arrival, dest_modifyAt hf, preferred_modifyAt]

theorem Wired.modifyAt (hw : b.Wired) (hf : Match.KeepsLinks f) : (b.modifyAt p f).Wired where
  fixtures_eq := hw.fixtures_eq
  groups_eq := hw.groups_eq
  games_ne := by
    intro r hr
    simp only [Bracket.modifyAt, List.mem_iff_getElem, List.length_modify] at hr
    obtain ⟨i, hi, rfl⟩ := hr
    rw [List.getElem_modify]
    have hne := hw.games_ne _ (List.getElem_mem hi)
    split
    · simpa using hne
    · exact hne
  named := by
    intro q hq
    rw [positions_modifyAt] at hq
    rw [game_id_modifyAt hf]
    exact hw.named q hq
  unique := by
    intro q hq q' hq' h
    rw [positions_modifyAt] at hq hq'
    rw [game_id_modifyAt hf, game_id_modifyAt hf] at h
    exact hw.unique q hq q' hq' h
  linked := by
    intro q hq k
    rw [positions_modifyAt] at hq
    simp only [game_target_modifyAt hf, game_id_modifyAt hf, positions_modifyAt]
    exact hw.linked q hq k
  sides := by
    intro q p₁ k₁ p₂ k₂
    simp only [dest_modifyAt hf, arrival_modifyAt hf]
    exact hw.sides q p₁ k₁ p₂ k₂

end Keep

section Skeleton

/-- The ids and links of the knockout matches, round by round: what no step changes. -/
def skeleton (b : Bracket) : List (List (Value × Value × Value)) :=
  b.rounds.map fun r => r.games.map fun m => (m.id, m.next, m.loserNext)

theorem matchAt?_map_links (b : Bracket) (p : Pos) :
    (b.matchAt? p).map (fun m => (m.id, m.next, m.loserNext)) =
      (b.skeleton[p.round]?).bind (·[p.index]?) := by
  simp only [matchAt?, skeleton, List.getElem?_map]
  cases b.rounds[p.round]? <;> simp [List.getElem?_map]

theorem positions_eq_of_skeleton {b b' : Bracket} (h : b.skeleton = b'.skeleton) :
    b.positions = b'.positions := by
  ext p
  have := matchAt?_map_links b p
  rw [h, ← matchAt?_map_links b' p] at this
  simp only [mem_positions]
  rw [← Option.isSome_map (f := fun m : Match => (m.id, m.next, m.loserNext)), this,
    Option.isSome_map]

theorem game_links_eq_of_skeleton {b b' : Bracket} (h : b.skeleton = b'.skeleton) (p : Pos) :
    (b.game p).id = (b'.game p).id ∧ (b.game p).next = (b'.game p).next ∧
      (b.game p).loserNext = (b'.game p).loserNext := by
  have hmap := matchAt?_map_links b p
  rw [h, ← matchAt?_map_links b' p] at hmap
  simp only [game]
  cases h₁ : b.matchAt? p <;> cases h₂ : b'.matchAt? p <;> simp_all

theorem game_id_eq_of_skeleton {b b' : Bracket} (h : b.skeleton = b'.skeleton) (p : Pos) :
    (b.game p).id = (b'.game p).id :=
  (game_links_eq_of_skeleton h p).1

theorem game_target_eq_of_skeleton {b b' : Bracket} (h : b.skeleton = b'.skeleton) (p : Pos)
    (k : Link) : (b.game p).target k = (b'.game p).target k := by
  cases k
  · exact (game_links_eq_of_skeleton h p).2.1
  · exact (game_links_eq_of_skeleton h p).2.2

theorem rounds_length_eq_of_skeleton {b b' : Bracket} (h : b.skeleton = b'.skeleton) :
    b.rounds.length = b'.rounds.length := by
  simpa [skeleton] using congrArg List.length h

theorem skeleton_modifyAt {b : Bracket} {p : Pos} {f : Match → Match} (hf : Match.KeepsLinks f) :
    (b.modifyAt p f).skeleton = b.skeleton := by
  simp only [skeleton, modifyAt]
  apply List.ext_getElem
  · simp
  · intro i h₁ h₂
    simp only [List.getElem_map, List.getElem_modify]
    split
    · apply List.ext_getElem
      · simp
      · intro j h₃ h₄
        simp only [List.getElem_map, List.getElem_modify]
        split
        · simp [(hf _).1, (hf _).2.1, (hf _).2.2]
        · rfl
    · rfl

end Skeleton

end Bracket

end TournamentDraw
