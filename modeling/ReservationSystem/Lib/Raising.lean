import Mathlib.Init

/-!
# Programs that can raise

A program with a state. What it has changed before it raises stays changed.
-/

namespace Raising

variable {ε σ α β : Type} {s : σ}

theorem bind_eq_ok {x : Except ε α} {f : α → Except ε β} {b : β} :
    x >>= f = .ok b ↔ ∃ a, x = .ok a ∧ f a = .ok b := by
  cases x <;> simp [bind, Except.bind]

@[simp]
theorem run_bind (x : ExceptT ε (StateM σ) α) (f : α → ExceptT ε (StateM σ) β) :
    (x >>= f).run.run s =
      match x.run.run s with
      | (.ok a, s') => (f a).run.run s'
      | (.error e, s') => (.error e, s') := by
  show (x.run >>= ExceptT.bindCont f).run s = _
  rw [StateT.run_bind]
  rcases x.run.run s with ⟨_ | a, s'⟩ <;> rfl

@[simp]
theorem run_lift (x : Except ε α) : (liftM x : ExceptT ε (StateM σ) α).run.run s = (x, s) := by
  cases x <;> rfl

@[simp]
theorem run_pure (a : α) : (pure a : ExceptT ε (StateM σ) α).run.run s = (.ok a, s) := rfl

@[simp]
theorem run_get : (get : ExceptT ε (StateM σ) σ).run.run s = (.ok s, s) := rfl

@[simp]
theorem run_modify (f : σ → σ) :
    (modify f : ExceptT ε (StateM σ) PUnit).run.run s = (.ok ⟨⟩, f s) := rfl

theorem run_finally (body : ExceptT ε (StateM σ) α) (f : σ → σ) :
    (try body finally (modify f : ExceptT ε (StateM σ) PUnit)).run.run s =
      match body.run.run s with
      | (res, s') => (res, f s') := by
  obtain ⟨res, s', hbody⟩ : ∃ res s', body s = (res, s') := ⟨_, _, rfl⟩
  have hrun : body.run.run s = (res, s') := hbody
  rw [hrun]
  unfold tryFinally
  simp only [ExceptT.run_map, StateT.run_map]
  simp only [tryFinally', ExceptT.run_mk, StateT.run_bind]
  simp only [StateT.run, hbody]
  cases res <;> rfl

end Raising
