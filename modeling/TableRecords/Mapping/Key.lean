import TableRecords.Mapping.Basic

/-!
# Tables and their keys

A table has a name and, if it is keyed otherwise than the record type says, id columns of its
own. `keyOf` finds the mapped fields that make up the key: the id columns of the table, or else
the fields tagged as primary key, or else the default id column if it is mapped.
-/

namespace TableRecords

/-- A table. The name is written into statements as it is. -/
structure Table where
  name : String
  idColumns : List String := []
  deriving DecidableEq, Repr

namespace Mapping

/-- The mapped field of an id column that a table names. -/
def idColumn (m : Mapping) (table : Table) (column : String) : Except Error m.Index :=
  match m.indexOf? column with
  | some i => .ok i
  | none => .error (.invalidMapping m.typeName
      s!"id column {Text.quoted column} of table {table.name} is not mapped")

/-- The fields of the key in key order; none if the records have no key. -/
def keyOf (m : Mapping) (table : Table) (defaultIdColumn : String) :
    Except Error (List m.Index) :=
  if !table.idColumns.isEmpty then table.idColumns.mapM (m.idColumn table)
  else if !m.primaryKey.isEmpty then .ok m.primaryKey
  else .ok (m.indexOf? defaultIdColumn).toList

end Mapping
end TableRecords
