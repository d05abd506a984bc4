import TableRecords.Proofs.Action
import TableRecords.Session.Transaction

/-!
# Transactions of sessions

A session makes its transaction out of that of its adapter, whose body it runs once.

    Session.exec_transaction      : what it makes of it
    Session.transaction_of_joined : where that is just the body
-/

namespace TableRecords

variable {σ η β α : Type}

/-- What becomes of the first run of a body. -/
def Session.Attempt.ofResult : Except Error α → Session.Attempt α
  | .ok a => .gave a
  | .error _ => .failed

theorem Session.exec_runOnce {body : Action (β × σ) α} {r : Except Error α} {b b' : β} {db db' : σ}
    (h : body.exec (b, db) = (r, (b', db'))) :
    (runOnce body).exec ((.waiting, b), db) =
      (r.map fun _ => (), ((.ofResult r, b'), db')) := by
  rw [runOnce, Action.exec_of]
  dsimp only
  rw [h]
  cases r <;> rfl

/-- What a session makes of the transaction of its adapter. -/
theorem Session.exec_transaction (s : Session σ η) (body : Session σ η → Action (β × σ) α)
    {r : Except Error Unit} {attempt : Attempt α} {b b' : β} {db db' : σ}
    (h : (s.adapter.transaction s.handle fun handle => runOnce (body { s with handle })).exec
      ((.waiting, b), db) = (r, ((attempt, b'), db'))) :
    (s.transaction body).exec (b, db) = (r.bind fun () => attempt.value, (b', db')) := by
  rw [Session.transaction, Action.exec_of]
  dsimp only
  rw [h]

end TableRecords
