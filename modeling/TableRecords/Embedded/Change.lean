import TableRecords.Embedded.Query

/-!
# Changing tables

Inserts, updates and deletes work on a content and give the content after them, or a fault. A
row that is written is brought into the form of its columns and has to meet the constraints of
its table: first those on its own cells, then those on ids and unique columns, then references.
-/

namespace TableRecords.Embedded

/-- A change that is going on, with the id of the last row that it inserted. The id stays known
if the change fails. -/
abbrev Changing (α : Type) : Type := ExceptT Fault (StateM (Option Int64)) α

/-- What a change did. -/
structure Changed where
  content : Content
  /-- How many rows were changed. -/
  count : Nat
  /-- The cells of the rows that were written or deleted, as terms see them. -/
  rows : List (List Cell)

namespace StoredTable

/-- A default value. -/
def defaultOf (c : ColumnDef) : Except Fault Cell :=
  match c.default with
  | none => .ok .null
  | some e => do (← Columns.none.resolve e).eval [] []

/-- Checks the constraints on the cells of a row. -/
def checkCells (t : StoredTable) (row : Row) : Except Fault Unit := do
  let d := t.definition
  (d.columns.zip row.cells).forM fun (c, x) =>
    if c.notNull && x.isNull then .error (.notNull t.name c.name) else .ok ()
  d.checks.forM fun k => do
    let term ← (Columns.ofTable t t.name).resolve k.expr
    if (← term.eval [] (t.cellsOf row)).truth = some false then throw (.check k.text)

/-- Checks that the id and the unique columns of a row are those of no other row. -/
def checkUnique (t : StoredTable) (self : Option Int64) (row : Row) : Except Fault Unit := do
  let d := t.definition
  let fault := fun (is : List Nat) =>
    Fault.unique ((d.namesAt is).map fun c => s!"{t.name}.{c}")
  if some row.id ≠ self ∧ (t.rowOf? row.id).isSome then
    throw (fault d.idColumn?.toList)
  match d.uniqueIndexes.find? fun is => t.hasEqual self is row.cells with
  | some is => throw (fault is)
  | none => return

/-- The cells of a row in the form of their columns, with the id in its column. -/
def formed (t : StoredTable) (id : Int64) (cells : List Cell) : Row :=
  let d := t.definition
  ⟨id, cells.zipIdx.map fun (x, i) =>
    if d.idColumn? = some i then .integer id else Cell.store (d.affinityAt i) x⟩

/-- The id that a row names itself. -/
def ownId? (t : StoredTable) (cells : List Cell) : Except Fault (Option Int64) :=
  match t.definition.idColumn? with
  | none => .ok none
  | some i =>
    match Cell.store .integer (cells.getD i .null) with
    | .null => .ok none
    | .integer n => .ok (some n)
    | _ => .error .mismatch

end StoredTable

namespace Content

/-- Checks the tables that a row refers to, and if it is inserted `alone` that its references
resolve, the deferred ones excepted. The row may refer to itself. -/
def checkReferences (c : Content) (t : StoredTable) (alone : Bool) (row : Row) :
    Except Fault Unit :=
  t.definition.references.forM fun r => do
    if (c.find? r.table).isNone then throw (.noSuchTable s!"main.{r.table}")
    if alone && !r.deferred && !c.resolves t.definition r row.cells then throw .foreignKey

/-- Checks the references that a change of a table may have broken. -/
def checkSound (c : Content) : Except Fault Unit :=
  if c.sound false then .ok () else .error .foreignKey

/-- Inserts a row with a cell for every column. A row that is inserted `alone` must not have open
references before it is. -/
def insertRow (c : Content) (t : StoredTable) (alone : Bool) (cells : List Cell) :
    Changing (Content × StoredTable × Row) := do
  let id ← match ← t.ownId? cells with
    | some id => pure id
    | none => c.nextId t
  let row := t.formed id cells
  t.checkCells row
  t.checkUnique none row
  let t' := t.insert row
  let c' := c.put t'
  c'.checkReferences t alone row
  set (some id)
  return (if t.definition.autoincrement then c'.noteId t.name id else c', t', row)

/-- The cells for all columns of a table from those for some of them. -/
def completed (t : StoredTable) (columns : List Nat) (cells : List Cell) :
    Except Fault (List Cell) :=
  t.definition.columns.zipIdx.mapM fun (d, i) =>
    match (columns.zip cells).lookup i with
    | some x => .ok x
    | none => StoredTable.defaultOf d

/-- Inserts rows one after the other. -/
def insertRows (c : Content) (t : StoredTable) (alone : Bool) (columns : List Nat) :
    List (List Cell) → Changing Changed
  | [] => do
    c.checkSound
    return ⟨c, 0, []⟩
  | cells :: rest => do
    let (c, t, row) ← c.insertRow t alone (← completed t columns cells)
    let after ← insertRows c t alone columns rest
    return ⟨after.content, after.count + 1, t.cellsOf row :: after.rows⟩

/-- The rows of a table that meet a condition, in the order of their ids. -/
def matching (t : StoredTable) (args : List Cell) (condition : Option Term) :
    Except Fault (List Row) :=
  t.rows.filterM fun r => meets args condition (t.cellsOf r)

/-- Updates rows one after the other. -/
def updateRows (c : Content) (t : StoredTable) (args : List Cell)
    (changes : List (Nat × Term)) : List Row → Except Fault Changed
  | [] => do
    c.checkSound
    return ⟨c, 0, []⟩
  | old :: rest => do
    let values ← changes.mapM fun (i, e) => do return (i, ← e.eval args (t.cellsOf old))
    let cells := old.cells.zipIdx.map fun (x, i) => (values.reverse.lookup i).getD x
    let id ← match t.definition.idColumn?, ← t.ownId? cells with
      | none, _ => pure old.id
      | some _, some id => pure id
      | some _, none => throw .mismatch
    let row := t.formed id cells
    t.checkCells row
    t.checkUnique (some old.id) row
    let t := (t.erase old.id).insert row
    let after ← updateRows (c.put t) t args changes rest
    return { after with count := after.count + 1, rows := t.cellsOf row :: after.rows }

/-- Deletes rows. -/
def deleteRows (c : Content) (t : StoredTable) (rows : List Row) : Except Fault Changed := do
  let t' := { t with rows := t.rows.filter fun r => !(rows.any fun d => d.id == r.id) }
  let c' := c.put t'
  c'.checkSound
  return ⟨c', rows.length, rows.map t.cellsOf⟩

end Content

/-- The rows that a change returns: none if it returns no columns. -/
def returned (args : List Cell) (columns : List (String × Term)) (rows : List (List Cell)) :
    Except Fault (List (List Cell)) :=
  if columns.isEmpty then .ok []
  else rows.mapM fun cells => columns.mapM fun c => c.2.eval args cells

/-- What a statement changes. -/
inductive Effect where
  | none
  | rows
  | definitions
  deriving DecidableEq, Repr

namespace Plan

/-- The effect of a plan that changes rows: what it did, and the rows it gives. Other plans have
none. -/
def change (content : Content) (args : List Cell) : Plan → Changing (Changed × List (List Cell))
  | insert table columns rows returning => do
    let t ← content.table table
    let changed ← match rows with
      | .values rows => do
        let alone := rows.length == 1 && returning.isEmpty
        let rows ← liftM (rows.mapM fun row => row.mapM fun e => e.eval args [])
        content.insertRows t alone columns rows
      | .query q => do content.insertRows t false columns (← (q.rows content args).all)
      | .defaults => content.insertRows t returning.isEmpty [] [[]]
    return (changed, ← returned args returning changed.rows)
  | update table changes condition returning => do
    let t ← content.table table
    let rows ← Content.matching t args condition
    let changed ← content.updateRows t args changes rows
    return (changed, ← returned args returning changed.rows)
  | delete table condition returning => do
    let t ← content.table table
    let rows ← Content.matching t args condition
    let changed ← content.deleteRows t rows
    return (changed, ← returned args returning changed.rows)
  | _ => return (⟨content, 0, []⟩, [])

/-- What a plan changes. -/
def effect : Plan → Effect
  | insert .. | update .. | delete .. => .rows
  | define _ => .definitions
  | _ => .none

end Plan
end TableRecords.Embedded
