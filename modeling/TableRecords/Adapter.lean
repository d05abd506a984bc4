import TableRecords.Cursor

/-!
# Adapters

An adapter is what the library needs of a database. Every call goes through a handle: the one
an adapter is opened with, or the one the body of a transaction is given. `σ` is the state
behind the adapter and `β` the state of the caller, which a visitor of rows or the body of a
transaction works on.
-/

namespace TableRecords

/-- What a statement that returns no rows did. -/
structure ExecResult where
  rowsAffected : Nat
  /-- The id of the last row inserted, where the database reports one. -/
  lastInsertId : Option Int64
  deriving DecidableEq

/-- Access to a database. -/
structure Adapter (σ η : Type) where
  /-- The name of the dialect. -/
  dialectName : String
  execute : (handle : η) → (sql : String) → (args : List Value) → Action σ ExecResult
  /-- Lets a visitor read the rows of a statement. -/
  query : {β : Type} → (handle : η) → (sql : String) → (args : List Value) →
    (visit : Action (β × Cursor) Unit) → Action (β × σ) Unit
  /-- Runs a body so that all its statements take effect, or, if it fails, none. -/
  transaction : {β : Type} → (handle : η) → (body : η → Action (β × σ) Unit) →
    Action (β × σ) Unit
  close : (handle : η) → Action σ Unit

end TableRecords
