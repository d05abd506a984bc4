import TableRecords.Adapter
import TableRecords.Embedded.Cell

/-!
# Drivers

What an adapter needs of the driver of an embedded database: statements that are prepared, run
and read row by row, and transactions that are begun and ended on a connection. Each call works
on the world, which is the state of all databases and of the driver itself.

A statement is used up when it is run, or when its rows are released, and goes back to those that
the driver keeps for the same text.
-/

namespace TableRecords.Embedded

/-- A failure of the driver. -/
inductive DriverError where
  /-- A failure of the engine, with its result code. -/
  | engine (code : Int) (text : String)
  /-- A statement that was to give no rows gave one. -/
  | returnedRows
  /-- A row has no column of this number. -/
  | columnIndex (i : Nat)
  /-- A failure without a result code. -/
  | other (text : String)
  deriving DecidableEq

namespace DriverError

/-- The kind of the error. -/
def kind : DriverError → AdapterErrorKind
  | engine code _ => .ofResultCode code
  | _ => .other

/-- The wording. -/
def text : DriverError → String
  | engine _ text => text
  | returnedRows => "Execute returned results - did you mean to call query?"
  | columnIndex i => s!"Invalid column index: {i}"
  | other text => text

/-- The error of the call that failed. -/
def toError (e : DriverError) (sql : String) (argCount : Nat) : Error :=
  .adapter ⟨e.kind, sql, argCount, e.text⟩

end DriverError

/-- The driver of an embedded database. -/
structure Driver where
  World : Type
  Connection : Type
  Statement : Type
  /-- The rows of a statement that runs, or will when the first of them is asked for. -/
  Rows : Type
  /-- Takes the statement that is kept for a text, or prepares the text. -/
  prepare : (connection : Connection) → (sql : String) → World →
    Except DriverError Statement × World
  /-- The names of the columns. -/
  names : Statement → List String
  /-- Runs a statement that gives no rows, and tells how many rows it changed. -/
  execute : Statement → (args : List Cell) → World → Except DriverError Nat × World
  /-- The id of the row that was inserted last. -/
  lastId : Connection → World → Int64
  /-- Makes the rows of a statement ready to be read. -/
  query : Statement → (args : List Cell) → World → Except DriverError Rows × World
  /-- The next row, or nothing behind the last one. -/
  next : Rows → World → Except DriverError (Option (List Cell)) × Rows × World
  /-- How many rows and failures there are to come, at most. -/
  size : Rows → World → Nat
  /-- Ends the reading of rows. -/
  release : Rows → World → World
  begin : Connection → World → Except DriverError Unit × World
  commit : Connection → World → Except DriverError Unit × World
  /-- Lets go of a transaction that was begun and not committed. -/
  abandon : Connection → World → World
  /-- Closes a connection. One that is not closed can be used on. -/
  close : Connection → World → Except DriverError Unit × World

namespace Driver

variable (D : Driver)

/-- A call of the driver. Its failure names the text and the number of arguments. -/
def call {α : Type} (sql : String) (argCount : Nat)
    (f : D.World → Except DriverError α × D.World) : Action D.World α :=
  .of fun w => let (r, w) := f w; (r.mapError (·.toError sql argCount), w)

/-- The rows and failures to come if they are asked for one after the other, at most `n`. -/
def pending : (n : Nat) → D.Rows → D.World → List (Except DriverError (List Cell))
  | 0, _, _ => []
  | n + 1, rows, w =>
    match D.next rows w with
    | (.ok none, _) => []
    | (.ok (some cells), rows, w) => .ok cells :: pending n rows w
    | (.error e, rows, w) => .error e :: pending n rows w

/-- All rows and failures to come. -/
def coming (rows : D.Rows) (w : D.World) : List (Except DriverError (List Cell)) :=
  D.pending (D.size rows w) rows w

/-- Asks for rows, one after the other. -/
def skip : (n : Nat) → D.Rows → D.World → D.Rows × D.World
  | 0, rows, w => (rows, w)
  | n + 1, rows, w => let (_, rows, w) := D.next rows w; skip n rows w

end Driver

/-! ## Reading rows -/

/-- What rows are read by: the names of their columns, and the call that their errors name. -/
structure Heading where
  columns : List String
  sql : String
  argCount : Nat

namespace Heading

/-- The values of a row, one for each name. -/
def valuesOf (h : Heading) (cells : List Cell) : Except Error (List Value) :=
  if cells.length < h.columns.length then
    .error ((DriverError.columnIndex cells.length).toError h.sql h.argCount)
  else .ok ((cells.take h.columns.length).map Cell.toValue)

/-- What is told of a row. -/
def rowOf (h : Heading) (row : Except DriverError (List Cell)) : Except Error (List Value) := do
  h.valuesOf (← row.mapError (·.toError h.sql h.argCount))

/-- A cursor over rows. -/
def cursorOf (h : Heading) (rows : List (Except DriverError (List Cell))) : Cursor where
  columns := h.columns
  rows := rows.map h.rowOf

end Heading

/-- The rows of a query with their heading. -/
structure Reader (D : Driver) extends Heading where
  rows : D.Rows

namespace Reader

variable {D : Driver}

/-- The next row, or nothing behind the last one. -/
def next : Action (Reader D × D.World) (Option (List Value)) :=
  .of fun (r, w) =>
    let (answer, rows, w) := D.next r.rows w
    let row := match answer with
      | .ok none => .ok none
      | .ok (some cells) => (r.valuesOf cells).map some
      | .error e => .error (e.toError r.sql r.argCount)
    (row, ({ r with rows }, w))

/-- The rows to come as a cursor. -/
def cursor (r : Reader D) (w : D.World) : Cursor := r.cursorOf (D.coming r.rows w)

/-- Asks for rows, one after the other. -/
def skip (n : Nat) (r : Reader D) (w : D.World) : Reader D × D.World :=
  let (rows, w) := D.skip n r.rows w
  ({ r with rows }, w)

end Reader

/-! ## Statements on a connection -/

namespace Driver

variable (D : Driver)

/-- Runs a statement that gives no rows. -/
def executeOn (c : D.Connection) (sql : String) (args : List Value) :
    Action D.World ExecResult := do
  let statement ← D.call sql args.length (D.prepare c sql)
  let changed ← D.call sql args.length (D.execute statement (args.map Cell.bound))
  return ⟨changed, some (D.lastId c (← get))⟩

/-- Makes the rows of a statement ready to be read. -/
def openOn (c : D.Connection) (sql : String) (args : List Value) : Action D.World (Reader D) := do
  let statement ← D.call sql args.length (D.prepare c sql)
  let rows ← D.call sql args.length (D.query statement (args.map Cell.bound))
  return { columns := D.names statement, rows, sql, argCount := args.length }

end Driver
end TableRecords.Embedded
