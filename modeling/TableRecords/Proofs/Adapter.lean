import TableRecords.Adapter

/-!
# Answers to queries

An adapter refuses a query, or lets its visitor read a cursor.  Which of them, and which cursor,
the visitor has no part in.
-/

namespace TableRecords.Adapter

variable {σ η : Type}

/-- How an adapter answers a query. -/
inductive Reply (σ : Type) where
  /-- The query fails before its visitor is called. -/
  | failure (e : Error) (db : σ)
  /-- The visitor reads a cursor, and its result is that of the query.  What is left behind may
  depend on this result and on how far the cursor was read. -/
  | rows (c : Cursor) (release : Except Error Unit → Cursor → σ)

namespace Reply

/-- What a query comes to that is answered so. -/
def outcome {β : Type} (reply : Reply σ) (visit : Action (β × Cursor) Unit) (b : β) :
    Except Error Unit × (β × σ) :=
  match reply with
  | failure e db => (.error e, (b, db))
  | rows c release =>
    let (r, (b, c)) := visit.exec (b, c)
    (r, (b, release r c))

/-- The cursor that a visitor is handed, or the error without one. -/
def cursor : Reply σ → Except Error Cursor
  | failure e _ => .error e
  | rows c _ => .ok c

end Reply

/-- An adapter answers a query so, whatever visitor it is given. -/
def RepliesWith (a : Adapter σ η) (handle : η) (sql : String) (args : List Value) (db : σ)
    (reply : Reply σ) : Prop :=
  ∀ (β : Type) (visit : Action (β × Cursor) Unit) b,
    (a.query handle sql args visit).exec (b, db) = reply.outcome visit b

end TableRecords.Adapter
