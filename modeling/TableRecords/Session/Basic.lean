import TableRecords.Adapter
import TableRecords.Config
import TableRecords.Scan
import TableRecords.Statement.Basic

/-!
# Sessions

A session runs statements through a handle of an adapter, in one dialect. `scanFirst` and
`scanAll` run a read and copy its rows into records.
-/

namespace TableRecords

/-- A handle of an adapter, with what statements need to know. -/
structure Session (σ η : Type) where
  adapter : Adapter σ η
  handle : η
  dialect : Dialect
  /-- The key column of records that tag none. -/
  defaultIdColumn : String

namespace Session

variable [JsonLibrary] {σ η ρ : Type}

/-- A session on an adapter. The adapter has to name a dialect that is supported. -/
def ofAdapter (adapter : Adapter σ η) (handle : η) (config : Config) :
    Except Error (Session σ η) :=
  match Dialect.ofName adapter.dialectName with
  | .ok dialect => .ok ⟨adapter, handle, dialect, config.idColumn⟩
  | .error e => .error e

/-- The key of the records of a type in a table. -/
def key (s : Session σ η) (m : Mapping) (table : Table) : Except Error (List m.Index) :=
  m.keyOf table s.defaultIdColumn

/-- Runs a statement that returns no rows. -/
def execute (s : Session σ η) (st : Statement) : Action σ ExecResult :=
  s.adapter.execute s.handle st.sql st.args

/-- Copies the first row of a cursor and notes whether there was one. -/
def visitFirst (m : Mapping) (type : RecordType ρ) : Action ((ρ × Bool) × Cursor) Unit :=
  .of fun ((d, found), cursor) =>
    let (r, (d, cursor)) := (Scan.one m type).exec (d, cursor)
    match r with
    | .ok found => (.ok (), ((d, found), cursor))
    | .error e => (.error e, ((d, found), cursor))

/-- Runs a read and copies its first row, if there is one, into the record. Tells whether there
was a row. -/
def scanFirst (s : Session σ η) (m : Mapping) (type : RecordType ρ) (st : Statement) :
    Action (ρ × σ) Bool :=
  .of fun (d, db) =>
    let (r, ((d, found), db)) :=
      (s.adapter.query s.handle st.sql st.args (visitFirst m type)).exec ((d, false), db)
    (r.map fun () => found, (d, db))

/-- Runs a read and makes a record of every row. -/
def scanAll (s : Session σ η) (m : Mapping) (type : RecordType ρ) (st : Statement) :
    Action σ (List ρ) :=
  .of fun db =>
    let visit : Action (List ρ × Cursor) Unit := do let _ ← Scan.all m type
    let (r, (records, db)) := (s.adapter.query s.handle st.sql st.args visit).exec ([], db)
    (r.map fun () => records, db)

end Session
end TableRecords
