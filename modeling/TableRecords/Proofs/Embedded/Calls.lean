import TableRecords.Proofs.Embedded.Within

/-!
# Calls on a connection in a transaction

A transaction that is begun sees the content of the database.  A call leaves the connection within
it and does to what it sees what `evaluate` tells, or nothing; `COMMIT` and `ROLLBACK` take the
connection out of it, with what it saw in the database, or with nothing changed.
-/

namespace TableRecords.Embedded.Link

open Run (Ensures)

variable {l₀ l : Link} {i : Nat} {c : Content}

/-! ## The ends of a transaction -/

/-- The link with a transaction begun. -/
def begun (l : Link) : Link := l.onConnection fun c => { c with transaction := some {} }

variable {p : Prepared}

variable {r : Running}

/-- Behind the first row nothing is run. -/
theorem next_of_running {rows : Rows} (hrunning : r.rest = some rows) :
    next r l = (rows.answer.1, { r with rest := some rows.answer.2 }, l) := by
  unfold next
  rw [hrunning]

end TableRecords.Embedded.Link
