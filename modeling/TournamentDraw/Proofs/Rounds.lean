import TournamentDraw.Proofs.Seeding
import TournamentDraw.Proofs.Record

/-!
# Steps on the knockout rounds alone

The bye cascade, and the seating of the first round, read and change the knockout rounds of a
competition and nothing else of it. A step of that kind (`Step.OnRounds`), run on a
competition whose rounds are those of a knockout draw `b`, answers as it does on `b` and leaves
every other field of that competition as it found it. This is how the knockout stage of a group
competition inherits what is proved of plain knockout draws: the group fixtures beside the
rounds are carried along untouched (`exec_placeTeams_withRounds`).

The fixture pass of placement is the converse case: it changes fixtures and keeps the rounds
(`Step.KeepsRounds`).
-/

namespace TournamentDraw

namespace Step

variable {α β γ : Type}

/-- A step that reads and changes only the knockout rounds: on any competition `c` given the
rounds of `b` it answers as on `b`, and leaves the rest of `c` as it was. -/
def OnRounds (x : Step α) : Prop :=
  ∀ b c : Bracket, exec x { c with rounds := b.rounds } =
    ((exec x b).1, { c with rounds := (exec x b).2.rounds })

section OnRounds

theorem onRounds_pure (a : α) : OnRounds (pure a : Step α) := fun _ _ => rfl

theorem onRounds_throw (e : BracketError) : OnRounds (throw e : Step α) := fun _ _ => rfl

theorem OnRounds.bind {x : Step α} {f : α → Step β} (hx : OnRounds x)
    (hf : ∀ a, OnRounds (f a)) : OnRounds (x >>= f) := by
  intro b c
  rw [exec_bind, exec_bind, hx b c]
  obtain ⟨r, b'⟩ := exec x b
  cases r with
  | ok a => exact hf a b' c
  | error e => rfl

/-- A step that reads the whole competition first is on the rounds when what it goes on to do
depends on the rounds alone. -/
theorem onRounds_get_bind {f : Bracket → Step β} (hf : ∀ b, OnRounds (f b))
    (hr : ∀ b c : Bracket, f { c with rounds := b.rounds } = f b) : OnRounds (get >>= f) := by
  intro b c
  rw [exec_bind_of_ok (exec_get _), exec_bind_of_ok (exec_get _), hr]
  exact hf b b c

theorem onRounds_forIn (l : List γ) (f : γ → β → Step (ForInStep β))
    (hf : ∀ x y, OnRounds (f x y)) : ∀ init : β, OnRounds (forIn l init f) := by
  induction l with
  | nil => exact fun init => onRounds_pure init
  | cons x xs ih =>
    intro init
    rw [List.forIn_cons]
    refine (hf x init).bind fun r => ?_
    cases r with
    | done y => exact onRounds_pure y
    | yield y => exact ih y

theorem onRounds_matchAt (p : Pos) : OnRounds (matchAt p) := fun _ _ => rfl

theorem onRounds_update (p : Pos) (f : Match → Match) : OnRounds (update p f) := fun _ _ => rfl

theorem onRounds_roundAt (i : Nat) : OnRounds (roundAt i) := fun _ _ => rfl

theorem onRounds_fuel : OnRounds fuel := fun _ _ => rfl

theorem onRounds_keyable (v : Value) : OnRounds (keyable v) := by
  cases v <;> first | exact onRounds_pure () | exact onRounds_throw _

theorem knockoutPlaces_withRounds (b c : Bracket) :
    ({ c with rounds := b.rounds } : Bracket).knockoutPlaces = b.knockoutPlaces := rfl

theorem locate_eq (id : Value) : locate id = (keyable id >>= fun _ => get >>= fun s : Bracket =>
    match s.locate? id with
    | some p => pure p
    | none => throw (.unknownMatch id.describe)) := by
  cases id <;> rfl

theorem onRounds_locate (id : Value) : OnRounds (locate id) := by
  rw [locate_eq]
  refine (onRounds_keyable id).bind fun _ => onRounds_get_bind (fun s => ?_) fun _ _ => rfl
  split
  · exact onRounds_pure _
  · exact onRounds_throw _

theorem onRounds_seat (source target team : Value) : OnRounds (seat source target team) := by
  unfold seat
  refine (onRounds_locate _).bind fun sp => (onRounds_locate _).bind fun tp =>
    (onRounds_roundAt _).bind fun src => (onRounds_roundAt _).bind fun tgt =>
    (onRounds_matchAt _).bind fun t => ?_
  split
  · exact (onRounds_update _ _).bind fun _ => onRounds_pure _
  · exact onRounds_throw _

theorem onRounds_settle : ∀ (f : Nat) (p : Pos) (w : Value), OnRounds (settle f p w) := by
  intro f
  induction f with
  | zero => exact fun _ _ => onRounds_pure ()
  | succ f ih =>
    intro p w
    -- each link seats a team and may decide the match it lands in, one fuel lower
    have hfollow : ∀ m target team, OnRounds (Step.follow f m target team) := by
      intro m target team
      unfold Step.follow
      split
      · refine (onRounds_seat _ _ _).bind fun tp => (onRounds_matchAt tp).bind fun m' => ?_
        split
        · exact (onRounds_update _ _).bind fun _ => ih _ _
        · exact onRounds_pure ()
      · exact onRounds_pure ()
    rw [settle_succ]
    exact (onRounds_matchAt p).bind fun m => (onRounds_update _ _).bind fun _ =>
      (hfollow _ _ _).bind fun _ => hfollow _ _ _

theorem onRounds_resolveByeAt (p : Pos) : OnRounds (resolveByeAt p) := by
  unfold resolveByeAt
  refine (onRounds_matchAt p).bind fun m => ?_
  split
  · exact (onRounds_update _ _).bind fun _ => onRounds_fuel.bind fun f => onRounds_settle f p _
  · exact onRounds_pure ()

theorem onRounds_knockoutKeys : OnRounds knockoutKeys := by
  unfold knockoutKeys
  refine onRounds_get_bind (fun b => ?_) fun b c => by simp only [knockoutPlaces_withRounds]
  refine (onRounds_forIn _ _ (fun x _ => ?_) _).bind fun _ => onRounds_pure ()
  exact (onRounds_keyable _).bind fun _ => onRounds_pure _

/-- Resolving the byes reads and changes only the knockout rounds. -/
theorem onRounds_resolveByes : OnRounds resolveByes := by
  unfold resolveByes
  refine onRounds_knockoutKeys.bind fun _ => ?_
  refine onRounds_get_bind (fun b => ?_) fun b c => by simp only [knockoutPlaces_withRounds]
  refine (onRounds_forIn _ _ (fun x _ => ?_) _).bind fun _ => onRounds_pure ()
  exact (onRounds_resolveByeAt _).bind fun _ => onRounds_pure _

end OnRounds

/-- A step that leaves the knockout rounds as it found them, whatever it answers. -/
def KeepsRounds (x : Step α) : Prop := ∀ b, (exec x b).2.rounds = b.rounds

section KeepsRounds

theorem keepsRounds_pure (a : α) : KeepsRounds (pure a : Step α) := fun _ => rfl

theorem keepsRounds_throw (e : BracketError) : KeepsRounds (throw e : Step α) := fun _ => rfl

theorem KeepsRounds.bind {x : Step α} {f : α → Step β} (hx : KeepsRounds x)
    (hf : ∀ a, KeepsRounds (f a)) : KeepsRounds (x >>= f) := by
  intro b
  rw [exec_bind]
  have hb := hx b
  rcases h : exec x b with ⟨r, b'⟩
  rw [h] at hb
  cases r with
  | ok a => exact (hf a b').trans hb
  | error e => exact hb

theorem keepsRounds_get_bind {f : Bracket → Step β} (hf : ∀ b, KeepsRounds (f b)) :
    KeepsRounds (get >>= f) := fun b => by
  rw [exec_bind_of_ok (exec_get b)]
  exact hf b b

theorem keepsRounds_forIn (l : List γ) (f : γ → β → Step (ForInStep β))
    (hf : ∀ x y, KeepsRounds (f x y)) : ∀ init : β, KeepsRounds (forIn l init f) := by
  induction l with
  | nil => exact fun init => keepsRounds_pure init
  | cons x xs ih =>
    intro init
    rw [List.forIn_cons]
    refine (hf x init).bind fun r => ?_
    cases r with
    | done y => exact keepsRounds_pure y
    | yield y => exact ih y

theorem keepsRounds_matchOf (r : MatchRef) : KeepsRounds (matchOf r) := fun _ => rfl

theorem keepsRounds_updateFixture (i : Nat) (f : Match → Match) :
    KeepsRounds (updateRef (.fixture i) f) := fun _ => rfl

theorem keepsRounds_operand (r : Except OperandError α) : KeepsRounds (operand r) := by
  cases r
  · exact keepsRounds_throw _
  · exact keepsRounds_pure _

theorem keepsRounds_slotTeam (teams : List Value) (slot : Value) :
    KeepsRounds (slotTeam teams slot) := by
  unfold slotTeam
  refine (keepsRounds_operand _).bind fun c₁ => ?_
  split
  · exact keepsRounds_pure _
  · refine (keepsRounds_operand _).bind fun c₂ => ?_
    split
    · exact keepsRounds_pure _
    · split <;> first | exact keepsRounds_pure _ | exact keepsRounds_throw _

end KeepsRounds

end Step

namespace Bracket

variable {α : Type}

theorem foldl_modifyAt_withRounds (pos : α → Pos) (f : α → Match → Match) (l : List α) :
    ∀ b d : Bracket, l.foldl (fun c x => c.modifyAt (pos x) (f x)) { d with rounds := b.rounds } =
      { d with rounds := (l.foldl (fun c x => c.modifyAt (pos x) (f x)) b).rounds } := by
  induction l with
  | nil => exact fun _ _ => rfl
  | cons x xs ih => exact fun b d => ih (b.modifyAt (pos x) (f x)) d

theorem seatFirst_withRounds (b d : Bracket) (teams : List Value) :
    ({ d with rounds := b.rounds } : Bracket).seatFirst teams =
      { d with rounds := (b.seatFirst teams).rounds } := by
  have hbye : ({ d with rounds := b.rounds } : Bracket).byePlaces = b.byePlaces := rfl
  have hplay : ({ d with rounds := b.rounds } : Bracket).playPlaces = b.playPlaces := rfl
  simp only [seatFirst, hbye, hplay]
  rw [foldl_modifyAt_withRounds _ _ _ b d, foldl_modifyAt_withRounds _ _ _ _ d]

end Bracket

namespace Bracket.Fresh

variable {b : Bracket} {n w : Nat}

/-- **Seating beside group fixtures.** Placing teams that fit into a competition whose rounds
are those of a fresh draw `b` seats them, and resolves the byes, exactly as on `b` itself: the
rounds it leaves are those placement leaves in `b`, whatever the fixture pass then does. -/
theorem exec_placeTeams_withRounds (hF : b.Fresh n w) {teams : List Value}
    (hlen : teams.length = n) (hn : n ≤ 2 * w) {c : Bracket}
    (hc : Step.exec Step.resolveByes (b.seatFirst teams) = (.ok (), c)) {d : Bracket}
    (hfmt : d.format ≠ .groupsOnly) :
    (Step.exec (Step.placeTeams teams) { d with rounds := b.rounds }).2.rounds = c.rounds := by
  have hc' : Step.exec Step.resolveByes
      (({ d with rounds := b.rounds } : Bracket).seatFirst teams) =
        (.ok (), { d with rounds := c.rounds }) := by
    rw [seatFirst_withRounds, Step.onRounds_resolveByes, hc]
  unfold Step.placeTeams
  rw [Step.exec_bind_of_ok (Step.exec_get _)]
  dsimp only
  rw [if_pos ⟨hF.placeTeams_cond.1, hfmt⟩]
  have hroom : ¬teams.length > b.byePlaces.length + 2 * b.playPlaces.length := by
    rw [hF.room_eq, hlen]
    omega
  simp only [byePlaces, playPlaces, firstGames] at hroom
  rw [if_neg hroom, Step.exec_bind_of_ok (Step.exec_forIn_update _ _ _ _),
    Step.exec_bind_of_ok (Step.exec_forIn_update _ _ _ _)]
  erw [Step.exec_bind_of_ok hc']
  -- what is left is the fixture pass, which keeps the rounds
  refine Step.keepsRounds_get_bind (fun b' => (Step.keepsRounds_forIn _ _ (fun i _ => ?_) _).bind
    fun _ => Step.keepsRounds_pure ()) _
  have hseat : ∀ (slot : Value) (f : Value → Match → Match) (k : Step (ForInStep PUnit)),
      Step.KeepsRounds k → Step.KeepsRounds (do
        let t ← Step.slotTeam teams slot
        Step.updateRef (.fixture i) (f t)
        k) := fun slot f k hk =>
    (Step.keepsRounds_slotTeam _ _).bind fun _ => (Step.keepsRounds_updateFixture _ _).bind
      fun _ => hk
  refine (Step.keepsRounds_matchOf _).bind fun m => ?_
  split
  · refine hseat _ _ _ ?_
    split
    · exact hseat _ _ _ (Step.keepsRounds_pure _)
    · exact Step.keepsRounds_pure _
  · split
    · exact hseat _ _ _ (Step.keepsRounds_pure _)
    · exact Step.keepsRounds_pure _

end Bracket.Fresh

end TournamentDraw
