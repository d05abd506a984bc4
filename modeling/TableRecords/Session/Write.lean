import TableRecords.Session.Basic
import TableRecords.Sql.Placeholder
import TableRecords.Statement.Keyed

/-!
# Updating and deleting rows

Each of these operations sends one statement. All but `exec` speak of one row and fail if the
statement met none.
-/

namespace TableRecords.Session

variable {σ η ρ : Type}

/-- Runs a statement that has to meet a row. -/
def executeOnRow (s : Session σ η) (st : Statement) (context : String) : Action σ Unit := do
  if (← s.execute st).rowsAffected = 0 then throw (.notFound context)

/-- Writes a record to the row with its key; with `skipNulls` only what is not NULL. -/
def update (s : Session σ η) (type : RecordType ρ) (table : Table) (skipNulls : Bool)
    (d : ρ) : Action σ Unit := do
  let m ← type.mapping
  let key ← s.key m table
  let st ← Statement.update m type s.dialect table key skipNulls d
  s.executeOnRow st s!"no row in {table.name} matches the record's key"

/-- Deletes the row with the key of a record. -/
def delete (s : Session σ η) (type : RecordType ρ) (table : Table) (d : ρ) : Action σ Unit := do
  let m ← type.mapping
  let key ← s.key m table
  let st ← Statement.delete m type s.dialect table key d
  s.executeOnRow st s!"no row in {table.name} matches the key"

/-- Deletes the row with the given values in the id columns of the table, or in the default id
column if it names none. -/
def deleteByKey (s : Session σ η) (table : Table) (values : List Value) : Action σ Unit := do
  let columns := if table.idColumns.isEmpty then [s.defaultIdColumn] else table.idColumns
  let st ← Statement.deleteByColumns s.dialect table columns values
  s.executeOnRow st s!"no row in {table.name} matches the key"

/-- Deletes the row with the given id. -/
def deleteById (s : Session σ η) (table : Table) (id : Value) : Action σ Unit :=
  s.deleteByKey table [id]

/-- Runs a statement of the caller and tells how many rows it changed. -/
def exec (s : Session σ η) (sql : String) (args : List Value) : Action σ Nat := do
  let sql ← Sql.withPlaceholders sql s.dialect 0 args.length
  return (← s.adapter.execute s.handle sql args).rowsAffected

end TableRecords.Session
