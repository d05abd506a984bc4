import TableRecords.Session.Basic

/-!
# Transactions

The body of a transaction works through a session of its own and gives a value. It is run once:
an adapter that runs it again, or not at all, makes the transaction fail.
-/

namespace TableRecords.Session

variable {σ η β α : Type}

/-- How far the body of a transaction got. -/
inductive Attempt (α : Type) where
  | waiting
  | failed
  | gave (a : α)

/-- The value that a body gave. -/
def Attempt.value : Attempt α → Except Error α
  | gave a => .ok a
  | _ => .error (.invalidArgument "transaction body did not run")

/-- Runs a body unless it was run before. -/
def runOnce (body : Action (β × σ) α) : Action ((Attempt α × β) × σ) Unit :=
  .of fun ((attempt, b), db) =>
    match attempt with
    | .waiting =>
      match body.exec (b, db) with
      | (.ok a, (b, db)) => (.ok (), ((.gave a, b), db))
      | (.error e, (b, db)) => (.error e, ((.failed, b), db))
    | _ => (.error (.invalidArgument "transaction body ran twice"), ((attempt, b), db))

/-- Runs a body in a transaction. If it succeeds its statements take effect and its value is
given, and if it fails they are undone and its error is given. -/
def transaction (s : Session σ η) (body : Session σ η → Action (β × σ) α) :
    Action (β × σ) α :=
  .of fun (b, db) =>
    let (r, ((attempt, b), db)) :=
      (s.adapter.transaction s.handle fun handle => runOnce (body { s with handle })).exec
        ((.waiting, b), db)
    (r.bind fun () => attempt.value, (b, db))

end TableRecords.Session
