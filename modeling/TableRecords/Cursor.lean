import TableRecords.Action

/-!
# Cursors

A cursor moves forward over the rows of a result and counts how many it was asked for. Reading a
row can fail.
-/

namespace TableRecords

/-- The rows of a result that are still to come. -/
structure Cursor where
  columns : List String
  rows : List (Except Error (List Value))
  /-- How often a row was asked for. -/
  fetched : Nat := 0

namespace Cursor

/-- The next row, or nothing behind the last one. -/
def next : Action Cursor (Option (List Value)) :=
  .of fun c =>
    match c.rows with
    | [] => (.ok none, { c with fetched := c.fetched + 1 })
    | row :: rest => (row.map some, { c with rows := rest, fetched := c.fetched + 1 })

end Cursor
end TableRecords
