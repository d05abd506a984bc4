import TableRecords.Session.Basic
import TableRecords.Statement.Select

/-!
# Reading records

A read gives all records that a statement finds, or the first one. The rows behind the first are
not read then, and no row at all is an error.
-/

namespace TableRecords.Session

variable [JsonLibrary] {σ η ρ : Type}

/-- All rows of a table that meet a condition. -/
def query (s : Session σ η) (type : RecordType ρ) (table : Table) (filter : String)
    (args : List Value) : Action σ (List ρ) := do
  let m ← type.mapping
  s.scanAll m type (← Statement.select m s.dialect table filter args)

/-- All rows of a statement of the caller. -/
def querySql (s : Session σ η) (type : RecordType ρ) (sql : String) (args : List Value) :
    Action σ (List ρ) := do
  let m ← type.mapping
  s.scanAll m type (← Statement.selectSql m s.dialect sql args)

/-- What a read looked for, as the message says it that it found nothing. -/
def context (st : Statement) : String :=
  match st.filter with
  | some filter => if st.table = "" then filter else s!"{st.table} where {filter}"
  | none => st.table

/-- The record of the first row of a read. -/
def firstOf (s : Session σ η) (m : Mapping) (type : RecordType ρ) (st : Statement) :
    Action σ ρ :=
  .of fun db =>
    match (s.scanFirst m type st).exec (type.zero, db) with
    | (.ok true, (d, db)) => (.ok d, db)
    | (.ok false, (_, db)) => (.error (.notFound (context st)), db)
    | (.error e, (_, db)) => (.error e, db)

/-- The first row of a table that meets a condition. -/
def queryOne (s : Session σ η) (type : RecordType ρ) (table : Table) (filter : String)
    (args : List Value) : Action σ ρ := do
  let m ← type.mapping
  s.firstOf m type (← Statement.select m s.dialect table filter args)

/-- The first row of a statement of the caller. -/
def queryOneSql (s : Session σ η) (type : RecordType ρ) (sql : String) (args : List Value) :
    Action σ ρ := do
  let m ← type.mapping
  s.firstOf m type (← Statement.selectSql m s.dialect sql args)

end TableRecords.Session
