import TableRecords.Action
import TableRecords.Proofs.Except

/-!
# Running actions

What `exec` gives for each way to make an action.  An action that begins with another goes on with
its result (`exec_bind_ok`) or stops with its error (`exec_bind_error`).
-/

namespace TableRecords.Action

variable {σ τ α β : Type}

@[simp] theorem exec_of (f : σ → Except Error α × σ) (s : σ) : (of f).exec s = f s := rfl

@[simp] theorem exec_pure (a : α) (s : σ) : (pure a : Action σ α).exec s = (.ok a, s) := rfl

@[simp] theorem exec_throw (e : Error) (s : σ) :
    (throw e : Action σ α).exec s = (.error e, s) := rfl

@[simp] theorem exec_get (s : σ) : (get : Action σ σ).exec s = (.ok s, s) := rfl

@[simp] theorem exec_set (s t : σ) : (set t : Action σ PUnit).exec s = (.ok ⟨⟩, t) := rfl

@[simp] theorem exec_modify (f : σ → σ) (s : σ) :
    (modify f : Action σ PUnit).exec s = (.ok ⟨⟩, f s) := rfl

@[simp] theorem exec_liftM (x : Except Error α) (s : σ) :
    (liftM x : Action σ α).exec s = (x, s) := by
  cases x <;> rfl

@[simp] theorem exec_onFirst (a : Action σ α) (s : σ) (t : τ) :
    a.onFirst.exec (s, t) = ((a.exec s).1, ((a.exec s).2, t)) := rfl

@[simp] theorem exec_onSecond (a : Action τ α) (s : σ) (t : τ) :
    a.onSecond.exec (s, t) = ((a.exec t).1, (s, (a.exec t).2)) := rfl

theorem exec_bind (a : Action σ α) (f : α → Action σ β) (s : σ) :
    (a >>= f).exec s =
      match a.exec s with
      | (.ok x, s') => (f x).exec s'
      | (.error e, s') => (.error e, s') := by
  have hbind := run_bind_state a f s
  rcases h : a.exec s with ⟨r, s'⟩
  rw [show a.run s = (r, s') from h] at hbind
  cases r <;> exact hbind

theorem exec_bind_ok {a : Action σ α} {f : α → Action σ β} {s s' : σ} {x : α}
    (h : a.exec s = (.ok x, s')) : (a >>= f).exec s = (f x).exec s' := by
  rw [exec_bind, h]

theorem exec_bind_error {a : Action σ α} {f : α → Action σ β} {s s' : σ} {e : Error}
    (h : a.exec s = (.error e, s')) : (a >>= f).exec s = (.error e, s') := by
  rw [exec_bind, h]

theorem exec_tryCatch (a : Action σ α) (handle : Error → Action σ α) (s : σ) :
    (tryCatch a handle : Action σ α).exec s =
      match a.exec s with
      | (.ok x, s') => (.ok x, s')
      | (.error e, s') => (handle e).exec s' := by
  have hcatch := run_tryCatch_state a handle s
  rcases h : a.exec s with ⟨r, s'⟩
  rw [show a.run s = (r, s') from h] at hcatch
  cases r <;> exact hcatch

end TableRecords.Action
