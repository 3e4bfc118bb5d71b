import TournamentDraw.Proofs.Places

/-!
# Running a step

A step (`Step`) is a state transformer that may refuse part-way. `Step.exec` runs one on a
competition and answers the outcome with the competition as the step left it. The lemmas here
take the monad apart one bind at a time, and give the outcome of each small step that the
knockout operations are built from, so that later proofs never unfold them.
-/

namespace TournamentDraw

namespace Step

/-- The outcome of a step run on a competition, with the competition it leaves. -/
def exec {α : Type} (x : Step α) (b : Bracket) : Except BracketError α × Bracket :=
  x.run.run b

theorem exec_bind {α β : Type} (x : Step α) (f : α → Step β) (b : Bracket) :
    exec (x >>= f) b = match exec x b with
      | (.ok a, b') => exec (f a) b'
      | (.error e, b') => (.error e, b') := by
  simp only [exec, ExceptT.run_bind, StateT.run_bind]
  rcases h : (x.run.run b) with ⟨r, b'⟩
  cases r <;> simp_all [StateT.run] <;> rfl

theorem exec_bind_of_ok {α β : Type} {x : Step α} {f : α → Step β} {b b' : Bracket} {a : α}
    (h : exec x b = (.ok a, b')) : exec (x >>= f) b = exec (f a) b' := by
  rw [exec_bind, h]

theorem exec_bind_of_error {α β : Type} {x : Step α} {f : α → Step β} {b b' : Bracket}
    {e : BracketError} (h : exec x b = (.error e, b')) : exec (x >>= f) b = (.error e, b') := by
  rw [exec_bind, h]

theorem exec_seq_of_ok {α : Type} {x : Step Unit} {y : Step α} {b b' : Bracket}
    (h : exec x b = (.ok (), b')) : exec (x *> y) b = exec y b' := by
  simpa [seqRight_eq_bind] using exec_bind_of_ok (f := fun _ => y) h

/-- A step of no answer that does not refuse goes through, leaving the competition it leaves;
a run checked once by its outcome's truth value is then named by its second part. -/
theorem exec_eq_ok_of_toBool {x : Step Unit} {b : Bracket} (h : (exec x b).1.toBool = true) :
    exec x b = (.ok (), (exec x b).2) := by
  generalize exec x b = r at h ⊢
  obtain ⟨_ | _, c⟩ := r
  · cases h
  · rfl

@[simp] theorem exec_pure {α : Type} (a : α) (b : Bracket) : exec (pure a : Step α) b = (.ok a, b) :=
  rfl

@[simp] theorem exec_get (b : Bracket) : exec (get : Step Bracket) b = (.ok b, b) := rfl

@[simp] theorem exec_modify (f : Bracket → Bracket) (b : Bracket) :
    exec (modify f : Step Unit) b = (.ok (), f b) := rfl

@[simp] theorem exec_throw {α : Type} (e : BracketError) (b : Bracket) :
    exec (throw e : Step α) b = (.error e, b) := rfl

@[simp] theorem exec_matchAt (p : Pos) (b : Bracket) :
    exec (matchAt p) b = (.ok (b.game p), b) := rfl

@[simp] theorem exec_update (p : Pos) (f : Match → Match) (b : Bracket) :
    exec (update p f) b = (.ok (), b.modifyAt p f) := rfl

@[simp] theorem exec_roundAt (i : Nat) (b : Bracket) :
    exec (roundAt i) b = (.ok ((b.rounds[i]?).getD default), b) := rfl

@[simp] theorem exec_matchOf (r : MatchRef) (b : Bracket) :
    exec (matchOf r) b = (.ok ((b.get? r).getD default), b) := rfl

@[simp] theorem exec_updateRef (r : MatchRef) (f : Match → Match) (b : Bracket) :
    exec (updateRef r f) b = (.ok (), b.modify f r) := rfl

@[simp] theorem exec_keyable_str (s : String) (b : Bracket) :
    exec (keyable (.str s)) b = (.ok (), b) := rfl

theorem exec_locate_str (s : String) (b : Bracket) :
    exec (locate (.str s)) b = match b.locate? (.str s) with
      | some p => (.ok p, b)
      | none => (.error (.unknownMatch s), b) := by
  have hlocate : locate (.str s) = (get >>= fun b : Bracket => match b.locate? (.str s) with
      | some p => pure p
      | none => throw (.unknownMatch s)) := rfl
  rw [hlocate, exec_bind, exec_get]
  dsimp only
  cases b.locate? (.str s) <;> rfl

/-- A loop whose every round keeps an invariant of the items still to come, and never refuses,
ends without refusing and with the invariant of no items left. -/
theorem exec_forIn_of_step {α β : Type} (P : List α → β → Bracket → Prop)
    (f : α → β → Step (ForInStep β))
    (hf : ∀ x xs y b, P (x :: xs) y b →
      ∃ y' b', exec (f x y) b = (.ok (.yield y'), b') ∧ P xs y' b') :
    ∀ (l : List α) (y : β) (b : Bracket), P l y b →
      ∃ y' b', exec (forIn l y f) b = (.ok y', b') ∧ P [] y' b' := by
  intro l
  induction l with
  | nil =>
    intro y b h
    exact ⟨y, b, rfl, h⟩
  | cons x xs ih =>
    intro y b h
    obtain ⟨y', b', hx, hP⟩ := hf x xs y b h
    obtain ⟨y'', b'', hrest, hP'⟩ := ih y' b' hP
    refine ⟨y'', b'', ?_, hP'⟩
    rw [List.forIn_cons, exec_bind_of_ok hx]
    exact hrest

end Step

end TournamentDraw
