import TournamentDraw.Hash.Table
import Mathlib

/-!
# A table holds only the keys it was given

Every way of filling a table (inserting, growing, copying, removing entries) only ever puts
into a slot an entry it was handed or one that stood in a slot before. So a property of the
keys that holds of every key put in holds of every key read out (`Keeps`): a table built from
the keys of a mapping lists none but them, and removing entries lists none but what the table
had.
-/

namespace TournamentDraw.Hash.Table

variable {α : Type} {P : α → Prop}

/-- Every entry of the table has a key that satisfies `P`. -/
def Keeps (P : α → Prop) (t : Table α) : Prop :=
  ∀ s ∈ t.slots, ∀ e ∈ s, P e.1

theorem keeps_empty (n : Nat) : Keeps P (empty n : Table α) := by
  intro s hs e he
  have hs' : s = none := Array.eq_of_mem_replicate hs
  rw [hs'] at he
  cases he

theorem Keeps.mem_entries {t : Table α} (h : Keeps P t) {e : α × UInt64} (he : e ∈ t.entries) :
    P e.1 := by
  obtain ⟨s, hs, hse⟩ := List.mem_filterMap.1 he
  exact h s (Array.mem_toList_iff.1 hs) e hse

theorem Keeps.mem_keys {t : Table α} (h : Keeps P t) {k : α} (hk : k ∈ t.keys) : P k := by
  obtain ⟨e, he, rfl⟩ := List.mem_map.1 hk
  exact h.mem_entries he

theorem Keeps.putAt {t : Table α} (h : Keeps P t) (i : Nat) {x : α} (hx : P x) (hash : UInt64) :
    Keeps P (t.putAt i x hash) := by
  intro s hs e he
  rcases Array.mem_or_eq_of_mem_setIfInBounds hs with hs | rfl
  · exact h s hs e he
  · cases he
    exact hx

/-- A fold over a list keeps the property when each of its steps does. -/
theorem Keeps.foldl {β : Type} {u : Table α} (h : Keeps P u) (l : List β)
    (step : Table α → β → Table α) (hstep : ∀ u, ∀ b ∈ l, Keeps P u → Keeps P (step u b)) :
    Keeps P (l.foldl step u) := by
  induction l generalizing u with
  | nil => exact h
  | cons b l ih =>
    exact ih (hstep u b List.mem_cons_self h) fun u' b' hb' =>
      hstep u' b' (List.mem_cons_of_mem b hb')

/-- Entering entries whose keys satisfy `P` one by one, each into a free slot if one is found,
keeps the property. -/
theorem Keeps.foldl_putAt {u : Table α} (h : Keeps P u) (es : List (α × UInt64))
    (hes : ∀ e ∈ es, P e.1) :
    Keeps P (es.foldl (fun u (x, hx) =>
      match u.slotFor (fun _ => false) hx with
      | some i => u.putAt i x hx
      | none => u) u) :=
  h.foldl es _ fun u e he hu => by
    dsimp only
    split
    · exact hu.putAt _ (hes e he) _
    · exact hu

theorem Keeps.regrow {t : Table α} (h : Keeps P t) (n : Nat) : Keeps P (t.regrow n) :=
  (keeps_empty _).foldl_putAt _ fun _ he => h.mem_entries he

theorem Keeps.insert {t : Table α} (h : Keeps P t) (same : α → Bool) {x : α} (hx : P x)
    (hash : UInt64) : Keeps P (t.insert same x hash) := by
  unfold Table.insert
  split
  · exact h
  · dsimp only
    split
    · exact h.putAt _ hx _
    · exact (h.putAt _ hx _).regrow _

theorem Keeps.mono {Q : α → Prop} {t : Table α} (h : Keeps P t) (hPQ : ∀ x, P x → Q x) :
    Keeps Q t :=
  fun s hs e he => hPQ _ (h s hs e he)

/-- A table built from keys holds none but them. -/
theorem keeps_ofMapping (eq : α → α → Bool) (hash : α → UInt64) (ks : List α) :
    Keeps (· ∈ ks) (ofMapping eq hash ks) := by
  have hstart : Keeps (· ∈ ks) (if ks.length * 5 ≥ 7 * 3 then
      (empty 8 : Table α).regrow (ks.length * 2) else empty 8) := by
    split
    · exact (keeps_empty 8).regrow _
    · exact keeps_empty 8
  -- every key inserted along the way is one of `ks`
  exact hstart.foldl ks _ fun t k hk ht => ht.insert _ hk _

theorem Keeps.copy {t : Table α} (h : Keeps P t) : Keeps P t.copy := by
  unfold Table.copy
  dsimp only
  split
  · split
    · exact h
    · exact ((keeps_empty 8).regrow _).foldl_putAt _ fun _ he => h.mem_entries he
  · split
    · exact h
    · exact (keeps_empty 8).foldl_putAt _ fun _ he => h.mem_entries he

/-- Removing entries keeps only keys the table had. -/
theorem Keeps.without {t : Table α} (h : Keeps P t) (eq : α → α → Bool) (drop : α → Bool)
    (n : Nat) : Keeps P (t.without eq drop n) := by
  unfold Table.without
  split
  · intro s hs e he
    obtain ⟨s', hs', rfl⟩ := Array.mem_map.1 hs
    rcases s' with _ | ⟨x, hx⟩
    · cases he
    · dsimp only at he
      split at he
      · cases he
      · cases he
        exact h.copy _ hs' _ rfl
  · -- the entries kept are entered again into a fresh table
    exact (keeps_empty 8).foldl _ _ fun u e he hu => by
      dsimp only
      split
      · exact hu
      · exact hu.insert _ (h.mem_entries he) _

end TournamentDraw.Hash.Table
