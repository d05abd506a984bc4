import TableRecords.Session.Basic
import TableRecords.Statement.Insert
import TableRecords.Statement.Keyed

/-!
# Inserting records

An insert writes a record and fills the columns that the database assigned back into it: from
the rows the statement returns, or, where the driver reports only the id of the row, from that
id and a second statement. In the latter case an insert whose columns could not be read back is
refused before anything is sent.
-/

namespace TableRecords.Session

variable [JsonLibrary] {σ η ρ : Type}

/-- A driver reported something else than the statement asked for. -/
def driverFault (st : Statement) (detail : String) : Error :=
  .adapter ⟨.other, st.sql, st.args.length, detail⟩

/-- Refuses an insert whose assigned columns cannot be read back by the id of a row: the only
key column that may be assigned is a single one whose field takes an integer. -/
def checkReadBack (s : Session σ η) (m : Mapping) (type : RecordType ρ) (table : Table)
    (key pending : List m.Index) : Except Error Unit :=
  if pending.isEmpty then .ok ()
  else if key.isEmpty then
    .error (.invalidMapping m.typeName
      s!"generated columns need a key to be read back on {s.dialect.name}")
  else
    match key.filter (· ∈ pending) with
    | [] => .ok ()
    | i :: _ =>
      let missing := .error (.missingPrimaryKey table.name (m.field i).column)
      if key.length = 1 then
        match type.set type.zero (m.field i).path (.integer 1) with
        | .ok _ => .ok ()
        | .error _ => missing
      else missing

/-- Sets a single key column that was assigned to the id that the driver reported. Gives the
columns that are still to be read. -/
def takeId (m : Mapping) (type : RecordType ρ) (key pending : List m.Index)
    (id : Option Int64) (d : ρ) : Except Error (ρ × List m.Index) :=
  match key, id with
  | [i], some id =>
    if i ∈ pending then
      let f := m.field i
      match type.set d f.path (.integer id) with
      | .ok d => .ok (d, pending.erase i)
      | .error e => .error (.scanTypeMismatch f.column f.field e)
    else .ok (d, pending)
  | _, _ => .ok (d, pending)

/-- Runs an insert that returns the assigned columns. -/
def insertReturning (s : Session σ η) (m : Mapping) (type : RecordType ρ) (st : Statement) :
    Action (ρ × σ) Unit := do
  if !(← s.scanFirst m type st) then throw (driverFault st "insert returned no row")

/-- Takes the id that the driver reported for an inserted row, and reads the columns that are still
to be read by the key of the record. -/
def readAssigned (s : Session σ η) (m : Mapping) (type : RecordType ρ) (table : Table)
    (key pending : List m.Index) (id : Option Int64) : Action (ρ × σ) Unit := do
  let (d, db) ← get
  let (d, pending) ← takeId m type key pending id d
  set (d, db)
  if pending.isEmpty then return
  let fetch ← Statement.fetch m type s.dialect table key pending d
  if !(← s.scanFirst m type fetch) then
    throw (.notFound s!"inserted row in {table.name} could not be read back")

/-- Runs an insert and reads the assigned columns by the id of the row. -/
def insertThenFetch (s : Session σ η) (m : Mapping) (type : RecordType ρ) (table : Table)
    (key : List m.Index) (st : InsertStatement m) : Action (ρ × σ) Unit := do
  s.checkReadBack m type table key st.readBack
  let result ← (s.execute st.toStatement).onSecond
  s.readAssigned m type table key st.readBack result.lastInsertId

/-- Inserts a record whose mapping and key are known. -/
def insertOne (s : Session σ η) (m : Mapping) (type : RecordType ρ) (table : Table)
    (key : List m.Index) : Action (ρ × σ) Unit := do
  let (d, _) ← get
  let st ← InsertStatement.ofRecord m type s.dialect table key d
  if st.readBack.isEmpty then
    let _ ← (s.execute st.toStatement).onSecond
  else
    match s.dialect.insertMethod with
    | .returning | .output => s.insertReturning m type st.toStatement
    | .lastInsertId => s.insertThenFetch m type table key st

/-- Inserts a record and fills in what the database assigned. -/
def insert (s : Session σ η) (type : RecordType ρ) (table : Table) : Action (ρ × σ) Unit := do
  let m ← type.mapping
  let key ← s.key m table
  s.insertOne m type table key

/-! ## Several records -/

/-- Inserts records one after the other up to the first that fails. -/
def insertEach (s : Session σ η) (m : Mapping) (type : RecordType ρ) (table : Table)
    (key : List m.Index) : List ρ → σ → Except Error Unit × (List ρ × σ)
  | [], db => (.ok (), ([], db))
  | d :: rest, db =>
    match (s.insertOne m type table key).exec (d, db) with
    | (.error e, (d, db)) => (.error e, (d :: rest, db))
    | (.ok (), (d, db)) =>
      let (r, (rest, db)) := insertEach s m type table key rest db
      (r, (d :: rest, db))

/-- Checks that a record can be inserted and read back by the id of its row. -/
def checkInsert (s : Session σ η) (m : Mapping) (type : RecordType ρ) (table : Table)
    (key : List m.Index) (d : ρ) : Except Error Unit := do
  let st ← InsertStatement.ofRecord m type s.dialect table key d
  s.checkReadBack m type table key st.readBack

/-- Records that are filled from rows in order: those that have their row and the others. -/
structure Filling (ρ : Type) where
  filled : List ρ
  waiting : List ρ

/-- Fills waiting records from the rows of a cursor. No row is read beyond the last record. -/
def Filling.fill (m : Mapping) (type : RecordType ρ) (filled : List ρ) :
    (waiting : List ρ) → Cursor → Except Error Unit × (Filling ρ × Cursor)
  | [], cursor => (.ok (), (⟨filled, []⟩, cursor))
  | d :: rest, cursor =>
    match Cursor.next.exec cursor with
    | (.error e, cursor) => (.error e, (⟨filled, d :: rest⟩, cursor))
    | (.ok none, cursor) => (.ok (), (⟨filled, d :: rest⟩, cursor))
    | (.ok (some values), cursor) =>
      match (Scan.row m type cursor.columns values).exec d with
      | (.error e, d) => (.error e, (⟨filled, d :: rest⟩, cursor))
      | (.ok (), d) => fill m type (filled ++ [d]) rest cursor

/-- Fills records from the rows of a cursor. -/
def Filling.visit (m : Mapping) (type : RecordType ρ) : Action (Filling ρ × Cursor) Unit :=
  .of fun (f, cursor) => Filling.fill m type f.filled f.waiting cursor

/-- Runs an insert of several records that returns their assigned columns row by row. -/
def insertAllReturning (s : Session σ η) (m : Mapping) (type : RecordType ρ) (st : Statement) :
    Action (List ρ × σ) Unit :=
  .of fun (records, db) =>
    let (r, (f, db)) :=
      (s.adapter.query s.handle st.sql st.args (Filling.visit m type)).exec (⟨[], records⟩, db)
    let result := do
      r
      if f.waiting.isEmpty then .ok ()
      else .error (driverFault st
        s!"insert returned {f.filled.length} rows for {records.length} records")
    (result, (f.filled ++ f.waiting, db))

/-- Inserts records: by one statement where it can return what the database assigned, and else
one after the other, once all of them are checked. -/
def insertAll (s : Session σ η) (type : RecordType ρ) (table : Table) :
    Action (List ρ × σ) Unit := do
  let (records, _) ← get
  if records.isEmpty then return
  let m ← type.mapping
  let key ← s.key m table
  if s.dialect.insertMethod = .lastInsertId then
    records.forM fun d => liftM (s.checkInsert m type table key d)
    .of fun (records, db) => s.insertEach m type table key records db
  else
    let st ← InsertStatement.ofRecords m type s.dialect table key records
    if st.readBack.isEmpty then
      let _ ← (s.execute st.toStatement).onSecond
    else s.insertAllReturning m type st.toStatement

end TableRecords.Session
