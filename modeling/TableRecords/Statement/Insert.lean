import TableRecords.Statement.Basic

/-!
# Inserts

`InsertPlan` divides the columns of a record into those that are written and those the database
assigns: a generated column always, a key column while its value is zero. The assigned columns
are read back as the dialect allows.
-/

namespace TableRecords

/-- What the insert of a record writes, and what it reads back. -/
structure InsertPlan (m : Mapping) where
  written : List (m.Index × Value)
  readBack : List m.Index
  deriving DecidableEq

namespace InsertPlan

/-- The columns that are written. -/
def columns {m : Mapping} (plan : InsertPlan m) : List m.Index := plan.written.map (·.1)

/-- Plans the columns at some places. -/
def ofIndexes {ρ : Type} (m : Mapping) (type : RecordType ρ) (key : List m.Index) (d : ρ) :
    List m.Index → Except Error (InsertPlan m)
  | [] => .ok ⟨[], []⟩
  | i :: rest =>
    if (m.field i).generated then do
      let plan ← ofIndexes m type key d rest
      return { plan with readBack := i :: plan.readBack }
    else do
      let v ← m.valueOf type d i
      let plan ← ofIndexes m type key d rest
      if i ∈ key ∧ v.isZero then return { plan with readBack := i :: plan.readBack }
      else return { plan with written := (i, v) :: plan.written }

/-- Plans the insert of a record. -/
def ofRecord {ρ : Type} (m : Mapping) (type : RecordType ρ) (key : List m.Index) (d : ρ) :
    Except Error (InsertPlan m) :=
  ofIndexes m type key d m.indexes

end InsertPlan

/-- An insert, with the columns that the database assigns. -/
structure InsertStatement (m : Mapping) extends Statement where
  readBack : List m.Index
  method : InsertMethod
  deriving DecidableEq

namespace InsertStatement

open Sql (Fragment separated columnList rowOf)

/-- The clause between the columns and the values. -/
def outputClause (d : Dialect) (readBack : List String) : List Fragment :=
  if d.insertMethod = .output ∧ readBack ≠ [] then
    .text " OUTPUT " :: separated ", " (readBack.map fun c => [.text "INSERTED.", .ident c])
  else []

/-- The clause behind the values. -/
def returningClause (d : Dialect) (readBack : List String) : List Fragment :=
  if d.insertMethod = .returning ∧ readBack ≠ [] then .text " RETURNING " :: columnList readBack
  else []

/-- An insert of `rows` rows. -/
def fragments (d : Dialect) (table : String) (columns : List String) (rows : Nat)
    (readBack : List String) : List Fragment :=
  .text s!"INSERT INTO {table} (" :: columnList columns ++ .text ")" :: outputClause d readBack
    ++ .text " VALUES "
      :: separated ", " ((List.range rows).map fun r =>
          rowOf (1 + r * columns.length) columns.length)
    ++ returningClause d readBack

/-- The insert of records with plans of the same columns. -/
def ofPlans {m : Mapping} (d : Dialect) (table : Table) (first : InsertPlan m)
    (plans : List (InsertPlan m)) : InsertStatement m :=
  let columns := m.columnsAt first.columns
  { kind := .insert
    table := table.name
    columns := columns
    filter := none
    sql := Sql.render d
      (fragments d table.name columns plans.length (m.columnsAt first.readBack))
    args := plans.flatMap fun plan => plan.written.map (·.2)
    readBack := first.readBack
    method := d.insertMethod }

/-- The insert of a record. -/
def ofRecord {ρ : Type} (m : Mapping) (type : RecordType ρ) (d : Dialect) (table : Table)
    (key : List m.Index) (record : ρ) : Except Error (InsertStatement m) := do
  let plan ← InsertPlan.ofRecord m type key record
  if plan.written.isEmpty then .error (.noColumns table.name)
  else .ok (ofPlans d table plan [plan])

/-- The insert of several records by one statement. All have to agree on which key columns are
assigned. -/
def ofRecords {ρ : Type} (m : Mapping) (type : RecordType ρ) (d : Dialect) (table : Table)
    (key : List m.Index) (records : List ρ) : Except Error (InsertStatement m) := do
  match ← records.mapM (InsertPlan.ofRecord m type key) with
  | [] => .error (.invalidArgument "no records to insert")
  | first :: rest =>
    if first.written.isEmpty then .error (.noColumns table.name)
    else if rest.all fun plan => plan.columns == first.columns then
      .ok (ofPlans d table first (first :: rest))
    else .error (.invalidArgument "records disagree on which key columns are assigned")

end InsertStatement
end TableRecords
