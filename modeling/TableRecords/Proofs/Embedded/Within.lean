import TableRecords.Embedded.Engine
import TableRecords.Proofs.Embedded.Run

/-!
# Connections in a transaction

`Link.Within l₀ i c l` : at `l₀` the connection `i` was outside of any transaction, and at `l` it is
within one that sees the content `c`.  Statements other than those that end it keep it within: they
change what it sees as `evaluate` tells, and if they fail or may not write, not at all.

    Link.step_within : a prepared statement
-/

namespace TableRecords.Embedded

/-! ## What a transaction leaves alone -/

/-- Two states of a link have the same content in the database and the same settings. -/
structure Link.Same (l₀ l : Link) : Prop where
  number : l.connection.database = l₀.connection.database
  settings : l.connection.settings = l₀.connection.settings
  content : l.database.content = l₀.database.content
  version : l.database.version = l₀.database.version

/-- A transaction has changes only with the right to write and in a snapshot.  It got that right
where nobody else had it. -/
structure Transaction.Fits (t : Transaction) (i : Nat) (writer₀ writer : Option Nat) : Prop where
  changed : t.changed = true → t.writing = true ∧ t.snapshot.isSome = true
  writing : t.writing = true → writer = some i ∧ ∀ j ∈ writer₀, j = i
  reading : t.writing = false → writer = writer₀

/-- A connection is within a transaction that sees a content. -/
structure Link.Within (l₀ : Link) (i : Nat) (c : Content) (l : Link) : Prop extends
    Link.Same l₀ l where
  sees : l.content = c
  transaction : ∃ t, l.connection.transaction = some t ∧
    t.Fits i l₀.database.writer l.database.writer ∧
    (t.changed = false → c = l₀.database.content)

/-- A connection is within a transaction and may write. -/
structure Link.Writes (l₀ : Link) (i : Nat) (c : Content) (l : Link) : Prop extends
    Link.Within l₀ i c l where
  writes : l.connection.transaction.any (·.writing) = true

namespace Link

variable {l₀ l : Link} {i : Nat} {c c' : Content}

/-- What is seen by a transaction. -/
theorem content_of_transaction {t : Transaction} (ht : l.connection.transaction = some t) :
    l.content = (t.snapshot.getD l.current).content := by
  obtain ⟨snapshot, writing, changed⟩ := t
  unfold content
  rw [ht]
  cases snapshot <;> rfl

/-- A connection stays within a transaction when something else about it changes. -/
theorem Within.onConnection (h : l₀.Within i c l) {f : Connection → Connection}
    (hdatabase : ∀ c, (f c).database = c.database)
    (hsettings : ∀ c, (f c).settings = c.settings)
    (htransaction : ∀ c, (f c).transaction = c.transaction) :
    l₀.Within i c (l.onConnection f) where
  number := (hdatabase _).trans h.number
  settings := (hsettings _).trans h.settings
  content := h.content
  version := h.version
  sees := by
    rw [← h.sees]
    unfold Link.content Link.onConnection
    dsimp only
    rw [htransaction]
  transaction := by
    obtain ⟨t, ht, hfits⟩ := h.transaction
    exact ⟨t, (htransaction _).trans ht, hfits⟩

theorem Within.countChanges (h : l₀.Within i c l) (n : Nat) :
    l₀.Within i c (l.onConnection fun c => { c with changes := n }) :=
  h.onConnection (fun _ => rfl) (fun _ => rfl) fun _ => rfl

theorem Within.noteId (h : l₀.Within i c l) (id : Option Int64) :
    l₀.Within i c (l.onConnection fun c => { c with lastId := id.getD c.lastId }) :=
  h.onConnection (fun _ => rfl) (fun _ => rfl) fun _ => rfl

theorem Within.keep (h : l₀.Within i c l) (p : Prepared) : l₀.Within i c (l.keep p) :=
  h.onConnection (fun _ => rfl) (fun _ => rfl) fun _ => rfl

theorem Writes.noteId (h : l₀.Writes i c l) (id : Option Int64) :
    l₀.Writes i c (l.onConnection fun c => { c with lastId := id.getD c.lastId }) :=
  ⟨h.toWithin.noteId id, h.writes⟩

end Link

namespace Run

variable {l₀ : Link} {i : Nat} {c : Content}

open Link (Within Writes)

/-! ## Beginning to read and to write -/

end Run

namespace Link

variable {l₀ l : Link} {i : Nat} {c : Content} {p : Prepared}

end Link
end TableRecords.Embedded
