import TableRecords.Statement.Basic

/-!
# Statements about one row

Updates, deletes and reads that find their row by its key. The placeholders of the key follow
those of the assigned columns.
-/

namespace TableRecords.Statement

open Sql (Fragment columnList equalities)

/-- An update of `columns` in the rows with the given key. -/
def updateFragments (table : String) (columns keyColumns : List String) : List Fragment :=
  .text s!"UPDATE {table} SET " :: equalities ", " 1 columns
    ++ .text " WHERE " :: equalities " AND " (columns.length + 1) keyColumns

/-- A delete of the rows with the given key. -/
def deleteFragments (table : String) (keyColumns : List String) : List Fragment :=
  .text s!"DELETE FROM {table} WHERE " :: equalities " AND " 1 keyColumns

/-- A read of `columns` in the rows with the given key. -/
def fetchFragments (table : String) (columns keyColumns : List String) : List Fragment :=
  .text "SELECT " :: columnList columns
    ++ .text s!" FROM {table} WHERE " :: equalities " AND " 1 keyColumns

/-- The values that an update of the columns at some places writes: generated and key columns
are left out, and NULLs too if `skipNulls`. -/
def assignments {ρ : Type} (m : Mapping) (type : RecordType ρ) (key : List m.Index)
    (skipNulls : Bool) (record : ρ) : List m.Index → Except Error (List (m.Index × Value))
  | [] => .ok []
  | i :: rest =>
    if (m.field i).generated ∨ i ∈ key then assignments m type key skipNulls record rest
    else do
      let v ← m.valueOf type record i
      let more ← assignments m type key skipNulls record rest
      return if skipNulls ∧ v.isNull then more else (i, v) :: more

/-- Writes the columns of a record outside its key to the row with its key. With `skipNulls` a
column keeps what it holds where the record has NULL. -/
def update {ρ : Type} (m : Mapping) (type : RecordType ρ) (d : Dialect) (table : Table)
    (key : List m.Index) (skipNulls : Bool) (record : ρ) : Except Error Statement := do
  let keyArgs ← m.keyValues type table key record
  let written ← assignments m type key skipNulls record m.indexes
  let columns := m.columnsAt (written.map (·.1))
  if columns.isEmpty then throw (.noColumns table.name)
  return {
    kind := .update
    table := table.name
    columns := columns
    filter := none
    sql := Sql.render d (updateFragments table.name columns (m.columnsAt key))
    args := written.map (·.2) ++ keyArgs }

/-- Deletes the rows whose columns have the given values, none of which may be zero. -/
def deleteByColumns (d : Dialect) (table : Table) (columns : List String)
    (values : List Value) : Except Error Statement :=
  if columns.isEmpty ∨ columns.length ≠ values.length then
    .error (.invalidArgument
      s!"{values.length} key values given for {columns.length} key columns of {table.name}")
  else
    match (columns.zip values).find? (·.2.isZero) with
    | some (column, _) => .error (.missingPrimaryKey table.name column)
    | none => .ok
      { kind := .delete
        table := table.name
        columns := columns
        filter := none
        sql := Sql.render d (deleteFragments table.name columns)
        args := values }

/-- Deletes the row with the key of a record. -/
def delete {ρ : Type} (m : Mapping) (type : RecordType ρ) (d : Dialect) (table : Table)
    (key : List m.Index) (record : ρ) : Except Error Statement := do
  deleteByColumns d table (m.columnsAt key) (← m.keyValues type table key record)

/-- Reads some columns of the row with the key of a record. -/
def fetch {ρ : Type} (m : Mapping) (type : RecordType ρ) (d : Dialect) (table : Table)
    (key indexes : List m.Index) (record : ρ) : Except Error Statement := do
  let keyArgs ← m.keyValues type table key record
  let columns := m.columnsAt indexes
  return {
    kind := .select
    table := table.name
    columns := columns
    filter := none
    sql := Sql.render d (fetchFragments table.name columns (m.columnsAt key))
    args := keyArgs }

end TableRecords.Statement
