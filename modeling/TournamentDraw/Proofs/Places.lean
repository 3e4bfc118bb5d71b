import TournamentDraw.Bracket.Play
import Mathlib

/-!
# Places of knockout matches

A knockout match stands at a place: a round and an index in that round. This module reads the
match at a place (`game`), collects the places of a competition (`positions`), and says how
changing the match at one place leaves every other place as it was. When the ids of the
knockout matches are distinct texts, looking a match up by id answers its place.
-/

namespace TournamentDraw

namespace Value

theorem eqv_str_iff {s : String} {v : Value} : (Value.str s).eqv v = true ↔ v = .str s := by
  cases v with
  | str t => simp only [eqv, beq_iff_eq, str.injEq]; exact eq_comm
  | _ => simp [eqv, numberCmp?, asExtended?]

theorem truthy_str {s : String} : (Value.str s).truthy = !s.isEmpty := rfl

end Value

namespace Bracket

/-- The knockout match at a place, the default match where there is none. -/
def game (b : Bracket) (p : Pos) : Match := (b.matchAt? p).getD default

/-- The places of the knockout matches. -/
def positions (b : Bracket) : Finset Pos := (b.knockoutPlaces.map Prod.fst).toFinset

theorem mem_knockoutPlaces {b : Bracket} {p : Pos} {m : Match} :
    (p, m) ∈ b.knockoutPlaces ↔ b.matchAt? p = some m := by
  obtain ⟨r, i⟩ := p
  simp only [knockoutPlaces, matchAt?, List.mem_flatMap, List.mem_map, Prod.mk.injEq,
    Pos.mk.injEq]
  constructor
  · rintro ⟨⟨rd, ri⟩, hr, ⟨m', j⟩, hm, ⟨rfl, rfl⟩, rfl⟩
    rw [List.mem_zipIdx_iff_getElem?] at hr hm
    simp_all
  · intro h
    simp only [Option.bind_eq_some_iff] at h
    obtain ⟨rd, hr, hm⟩ := h
    exact ⟨(rd, r), List.mem_zipIdx_iff_getElem?.2 hr, (m, i),
      List.mem_zipIdx_iff_getElem?.2 hm, ⟨rfl, rfl⟩, rfl⟩

theorem mem_positions {b : Bracket} {p : Pos} : p ∈ b.positions ↔ (b.matchAt? p).isSome := by
  simp only [positions, List.mem_toFinset, List.mem_map, Prod.exists, exists_and_right,
    exists_eq_right, mem_knockoutPlaces, Option.isSome_iff_exists]

theorem matchAt?_eq_game {b : Bracket} {p : Pos} (h : p ∈ b.positions) :
    b.matchAt? p = some (b.game p) := by
  obtain ⟨m, hm⟩ := Option.isSome_iff_exists.1 (mem_positions.1 h)
  simp [game, hm]

theorem mem_knockoutPlaces_iff {b : Bracket} {p : Pos} {m : Match} :
    (p, m) ∈ b.knockoutPlaces ↔ p ∈ b.positions ∧ b.game p = m := by
  rw [mem_knockoutPlaces]
  constructor
  · intro h
    have hp : p ∈ b.positions := mem_positions.2 (by simp [h])
    refine ⟨hp, ?_⟩
    simpa [matchAt?_eq_game hp] using h
  · rintro ⟨hp, rfl⟩
    exact matchAt?_eq_game hp

theorem matchAt?_modifyAt (b : Bracket) (p q : Pos) (f : Match → Match) :
    (b.modifyAt p f).matchAt? q = if q = p then (b.matchAt? q).map f else b.matchAt? q := by
  obtain ⟨r, i⟩ := p
  obtain ⟨r', i'⟩ := q
  simp only [modifyAt, matchAt?, List.getElem?_modify, Pos.mk.injEq]
  by_cases hr : r = r'
  · subst hr
    cases h : b.rounds[r]? with
    | none => simp
    | some rd =>
      by_cases hi : i = i' <;> simp [hi, eq_comm]
  · simp [hr, Ne.symm hr]

theorem positions_modifyAt (b : Bracket) (p : Pos) (f : Match → Match) :
    (b.modifyAt p f).positions = b.positions := by
  ext q
  simp only [mem_positions, matchAt?_modifyAt]
  split <;> simp

theorem game_modifyAt_self {b : Bracket} {p : Pos} (f : Match → Match) (h : p ∈ b.positions) :
    (b.modifyAt p f).game p = f (b.game p) := by
  rw [game, matchAt?_modifyAt, if_pos rfl, matchAt?_eq_game h]
  rfl

theorem game_modifyAt_ne (b : Bracket) {p q : Pos} (f : Match → Match) (h : q ≠ p) :
    (b.modifyAt p f).game q = b.game q := by
  simp [game, matchAt?_modifyAt, h]

theorem game_modifyAt (b : Bracket) (p q : Pos) (f : Match → Match) (h : p ∈ b.positions) :
    (b.modifyAt p f).game q = if q = p then f (b.game q) else b.game q := by
  split
  · subst q
    exact game_modifyAt_self f h
  · exact game_modifyAt_ne b f ‹_›

@[simp] theorem rounds_length_modifyAt (b : Bracket) (p : Pos) (f : Match → Match) :
    (b.modifyAt p f).rounds.length = b.rounds.length := by
  simp [modifyAt]

@[simp] theorem format_modifyAt (b : Bracket) (p : Pos) (f : Match → Match) :
    (b.modifyAt p f).format = b.format := rfl

@[simp] theorem fixtures_modifyAt (b : Bracket) (p : Pos) (f : Match → Match) :
    (b.modifyAt p f).fixtures = b.fixtures := rfl

@[simp] theorem groups_modifyAt (b : Bracket) (p : Pos) (f : Match → Match) :
    (b.modifyAt p f).groups = b.groups := rfl

/-- Changing a match keeps the round it stands in, but for its games. -/
theorem getElem?_rounds_modifyAt (b : Bracket) (p : Pos) (f : Match → Match) (i : Nat) :
    ((b.modifyAt p f).rounds[i]?).map (fun r => (r.number, r.name, r.lane, r.games.length)) =
      (b.rounds[i]?).map (fun r => (r.number, r.name, r.lane, r.games.length)) := by
  simp only [modifyAt, List.getElem?_modify]
  split <;> cases b.rounds[i]? <;> simp

theorem zipIdx_modify {α : Type} (l : List α) (i : Nat) (f : α → α) :
    (l.modify i f).zipIdx = l.zipIdx.map fun x => (if x.2 = i then f x.1 else x.1, x.2) := by
  apply List.ext_getElem
  · simp
  · intro j h₁ h₂
    simp only [List.getElem_zipIdx, List.getElem_map, List.getElem_modify, zero_add]
    split <;> simp_all [eq_comm]

theorem knockoutPlaces_modifyAt (b : Bracket) (p : Pos) (f : Match → Match) :
    (b.modifyAt p f).knockoutPlaces =
      b.knockoutPlaces.map fun x => if x.1 = p then (x.1, f x.2) else x := by
  obtain ⟨pr, pi⟩ := p
  simp only [knockoutPlaces, modifyAt, zipIdx_modify, List.flatMap_map, List.map_flatMap]
  apply List.flatMap_congr
  rintro ⟨r, ri⟩ -
  by_cases hr : ri = pr
  · subst hr
    simp only [if_true, zipIdx_modify, List.map_map]
    apply List.map_congr_left
    rintro ⟨m, i⟩ -
    by_cases hi : i = pi <;> simp [hi]
  · simp [hr, List.map_map]

end Bracket

end TournamentDraw
