import TableRecords.Mapping.Key
import TableRecords.Sql.Fragment

/-!
# Statements

A statement is a text for a dialect with the values to bind, together with what it is about.
`keyValues` reads the key of a record; a key value that is zero is not assigned, and no
statement is built for such a record.
-/

namespace TableRecords

/-- What a statement does. -/
inductive StatementKind where
  | insert
  | update
  | delete
  | select
  deriving DecidableEq, Repr

/-- A statement that is ready to run. -/
structure Statement where
  kind : StatementKind
  table : String
  /-- The columns that are written, read or compared. -/
  columns : List String
  /-- The condition as the caller wrote it. -/
  filter : Option String
  sql : String
  args : List Value
  deriving DecidableEq

namespace Mapping

/-- A value of a key field; zero is refused. -/
def keyValue {ρ : Type} (m : Mapping) (type : RecordType ρ) (table : Table) (d : ρ)
    (i : m.Index) : Except Error Value := do
  let v ← m.valueOf type d i
  if v.isZero then .error (.missingPrimaryKey table.name (m.field i).column) else .ok v

/-- The values of the key of a record, all assigned. -/
def keyValues {ρ : Type} (m : Mapping) (type : RecordType ρ) (table : Table)
    (key : List m.Index) (d : ρ) : Except Error (List Value) :=
  if key.isEmpty then
    .error (.invalidMapping m.typeName s!"no primary key declared for table {table.name}")
  else key.mapM (m.keyValue type table d)

end Mapping
end TableRecords
