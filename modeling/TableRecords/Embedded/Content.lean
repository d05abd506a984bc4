import TableRecords.Embedded.Syntax

/-!
# The content of a database

Tables with their rows in the order of their ids, and for each table that asks for it the largest
id that was ever given. Names of tables and columns are found in any letter case.
-/

namespace TableRecords.Embedded

/-- A row with its id. Where a column names the id, its cell holds the id too. -/
structure Row where
  id : Int64
  cells : List Cell
  deriving DecidableEq, Inhabited

/-- A table. -/
structure StoredTable where
  name : String
  definition : TableDef
  rows : List Row

/-- The content of a database. -/
structure Content where
  tables : List StoredTable := []
  /-- The largest id ever given, by table. -/
  sequences : List (String × Int64) := []
  deriving Inhabited

namespace TableDef

/-- The place of a column. -/
def indexOf? (d : TableDef) (column : String) : Option Nat :=
  d.columns.findIdx? fun c => Text.sameIgnoringCase c.name column

/-- The column that names the id of a row: an integer that is the primary key by itself. -/
def idColumn? (d : TableDef) : Option Nat :=
  match d.primaryKey with
  | [name] => do
    let i ← d.indexOf? name
    let c ← d.columns[i]?
    if Text.asciiLower c.typeName = "integer" then some i else none
  | _ => none

/-- The affinity of a column. -/
def affinityAt (d : TableDef) (i : Nat) : Affinity :=
  (d.columns[i]?.map fun c => Affinity.ofTypeName c.typeName).getD .none

/-- The names of the columns at some places. -/
def namesAt (d : TableDef) (is : List Nat) : List String :=
  is.filterMap fun i => d.columns[i]?.map (·.name)

/-- The places of columns that are unique together, those declared last first; the column of the
id is not among them. -/
def uniqueIndexes (d : TableDef) : List (List Nat) :=
  (d.uniques.map fun names => names.filterMap d.indexOf?).reverse.filter fun is =>
    is.map some ≠ [d.idColumn?]

end TableDef

namespace StoredTable

/-- The row with an id. -/
def rowOf? (t : StoredTable) (id : Int64) : Option Row := t.rows.find? (·.id == id)

/-- The largest id in use. -/
def lastId? (t : StoredTable) : Option Int64 := t.rows.getLast?.map (·.id)

/-- Adds a row at its place in the order of ids. -/
def insertRow (row : Row) : List Row → List Row
  | [] => [row]
  | r :: rest => if row.id < r.id then row :: r :: rest else r :: insertRow row rest

/-- The table with a row added. -/
def insert (t : StoredTable) (row : Row) : StoredTable := { t with rows := insertRow row t.rows }

/-- The table without the row of an id. -/
def erase (t : StoredTable) (id : Int64) : StoredTable :=
  { t with rows := t.rows.filter fun r => r.id != id }

/-- Whether a row other than that of the id `self` has the same cells at some places, none of
them NULL. -/
def hasEqual (t : StoredTable) (self : Option Int64) (is : List Nat) (cells : List Cell) :
    Bool :=
  let keyOf := fun (cells : List Cell) => is.map fun i => cells.getD i .null
  let key := keyOf cells
  !(key.any Cell.isNull) && t.rows.any fun r =>
    some r.id != self && (List.zipWith Cell.order (keyOf r.cells) key).all (· == .eq)

end StoredTable

namespace Content

/-- A table. -/
def find? (c : Content) (name : String) : Option StoredTable :=
  c.tables.find? fun t => Text.sameIgnoringCase t.name name

/-- A table that has to be there. -/
def table (c : Content) (name : String) : Except Fault StoredTable :=
  match c.find? name with
  | some t => .ok t
  | none => .error (.noSuchTable name)

/-- The content with a table put in place of the one of its name. -/
def put (c : Content) (t : StoredTable) : Content :=
  { c with tables := c.tables.map fun u => if Text.sameIgnoringCase u.name t.name then t else u }

/-- The largest id ever given in a table. -/
def sequence (c : Content) (name : String) : Int64 := (c.sequences.lookup name).getD 0

/-- The content with an id noted as given. -/
def noteId (c : Content) (name : String) (id : Int64) : Content :=
  { c with sequences :=
      (name, max id (c.sequence name)) :: c.sequences.filter fun s => s.1 != name }

/-- The id for a row that names none: one above the largest in use, and in a table that counts
its ids above the largest ever given. -/
def nextId (c : Content) (t : StoredTable) : Except Fault Int64 :=
  let last := t.lastId?.getD 0
  let last := if t.definition.autoincrement then max last (c.sequence t.name) else last
  if last = Int64.maxValue then .error .full
  else if t.rows.isEmpty ∧ !t.definition.autoincrement then .ok 1
  else .ok (last + 1)

/-! ## References -/

/-- The places in the table referred to, or nothing if there is no such table. -/
def keysOf (c : Content) (r : Reference) : Option (StoredTable × List Nat) := do
  let parent ← c.find? r.table
  let names := if r.keys.isEmpty then parent.definition.primaryKey else r.keys
  return (parent, names.filterMap parent.definition.indexOf?)

/-- Whether the cells of a row refer to nothing, or to a row that is there. -/
def resolves (c : Content) (d : TableDef) (r : Reference) (cells : List Cell) : Bool :=
  let key := (r.columns.filterMap d.indexOf?).map fun i => cells.getD i .null
  key.any Cell.isNull ||
    match c.keysOf r with
    | none => false
    | some (parent, is) =>
      let key := List.zipWith (fun i x => Cell.store (parent.definition.affinityAt i) x) is key
      parent.rows.any fun row =>
        (List.zipWith (fun i x => Cell.order (row.cells.getD i .null) x) is key).all (· == .eq)

/-- Whether every reference resolves that is checked at the end of a statement, or, if
`deferred`, of a transaction. -/
def sound (c : Content) (deferred : Bool) : Bool :=
  c.tables.all fun t => t.definition.references.all fun r =>
    r.deferred != deferred || t.rows.all fun row => c.resolves t.definition r row.cells

end Content
end TableRecords.Embedded
