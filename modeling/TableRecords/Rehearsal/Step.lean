import TableRecords.Session.Insert
import TableRecords.Session.Read
import TableRecords.Session.Transaction
import TableRecords.Session.Write
import TableRecords.Rehearsal.Script

/-!
# Rehearsals

A rehearsal runs a list of session operations on a list of records and reports what each of them
did. A transaction runs steps of its own; the first of them that fails ends it, unless the step
says that its failure does not count.
-/

namespace TableRecords.Rehearsal

/-- An operation of a session. Those on a single record work on the record of their step. -/
inductive Operation where
  | insert
  | update
  | patch
  | delete
  | insertAll
  | deleteById (id : Value)
  | deleteByKey (values : List Value)
  | exec (sql : String) (args : List Value)
  | query (filter : String) (args : List Value)
  | querySql (sql : String) (args : List Value)
  | queryOne (filter : String) (args : List Value)
  | queryOneSql (sql : String) (args : List Value)
  /-- Sets a field of the record. -/
  | set (path : Path) (v : Value)
  | close

/-- A step of a rehearsal. -/
inductive Step where
  | operation (op : Operation) (table : Table) (record : Nat) (showRecord mayFail : Bool)
  /-- Runs steps in a transaction whose body fails with `abort` or gives `value`. -/
  | transaction (steps : List Step) (abort : Option String) (value : Json) (mayFail : Bool)

/-- What a step gives. -/
inductive Outcome (ρ : Type) where
  | done
  | refused (e : CoerceError)
  | affected (n : Nat)
  | record (d : ρ)
  | records (ds : List ρ)
  | value (j : Json)

/-- What is told of a step. -/
structure Report (ρ : Type) where
  result : Except Error (Outcome ρ)
  calls : List Call
  /-- The record of the step afterwards. -/
  record : Option ρ
  /-- All records afterwards. -/
  records : Option (List ρ)
  /-- The reports of nested steps. -/
  nested : Option (List (Report ρ))

variable [JsonLibrary] {σ η ρ : Type}

/-- Runs an action on one record of several. -/
def onRecord (i : Nat) (a : Action (ρ × σ) Unit) : Action (List ρ × σ) Unit :=
  .of fun (ds, db) =>
    match ds[i]? with
    | none => (.ok (), (ds, db))
    | some d =>
      let (r, (d, db)) := a.exec (d, db)
      (r, (ds.set i d, db))

/-- Runs an action that only reads one record of several. -/
def withRecord (i : Nat) (a : ρ → Action σ Unit) : Action (List ρ × σ) Unit := do
  let (ds, _) ← get
  match ds[i]? with
  | none => return
  | some d => (a d).onSecond

/-- Sets a field of one record of several. -/
def setField (type : RecordType ρ) (i : Nat) (path : Path) (v : Value) :
    Action (List ρ × σ) (Outcome ρ) :=
  .of fun (ds, db) =>
    match ds[i]? with
    | none => (.ok .done, (ds, db))
    | some d =>
      match type.set d path v with
      | .ok d => (.ok .done, (ds.set i d, db))
      | .error e => (.ok (.refused e), (ds, db))

/-- Runs an operation. -/
def Operation.run (type : RecordType ρ) (s : Session σ η) (table : Table) (i : Nat) :
    Operation → Action (List ρ × σ) (Outcome ρ)
  | insert => do onRecord i (s.insert type table); return .done
  | update => do withRecord i (s.update type table false); return .done
  | patch => do withRecord i (s.update type table true); return .done
  | delete => do withRecord i (s.delete type table); return .done
  | insertAll => do s.insertAll type table; return .done
  | deleteById id => do (s.deleteById table id).onSecond; return .done
  | deleteByKey values => do (s.deleteByKey table values).onSecond; return .done
  | exec sql args => do return .affected (← (s.exec sql args).onSecond)
  | query filter args => do return .records (← (s.query type table filter args).onSecond)
  | querySql sql args => do return .records (← (s.querySql type sql args).onSecond)
  | queryOne filter args => do return .record (← (s.queryOne type table filter args).onSecond)
  | queryOneSql sql args => do return .record (← (s.queryOneSql type sql args).onSecond)
  | set path v => setField type i path v
  | close => do (s.adapter.close s.handle).onSecond; return .done

/-- Whether an operation is reported with all records. -/
def Operation.showsAll : Operation → Bool
  | insertAll => true
  | _ => false

/-- The records and the reports so far. -/
abbrev Progress (ρ : Type) : Type := List ρ × List (Report ρ)

/-- Adds the report of a step, and fails with its error if that counts. -/
def Report.settle (report : Report ρ) (mayFail : Bool) : Action (Progress ρ × σ) Unit :=
  .of fun ((ds, reports), db) =>
    let r := match report.result with
      | .error e => if mayFail then .ok () else .error e
      | .ok _ => .ok ()
    (r, ((ds, reports ++ [report]), db))

mutual

/-- Runs a step and adds its report. `takeCalls` gives the calls since it was last asked. -/
def Step.run (type : RecordType ρ) (takeCalls : StateM σ (List Call)) (s : Session σ η) :
    Step → Action (Progress ρ × σ) Unit
  | .operation op table i showRecord mayFail => do
    let ((ds, reports), db) ← get
    let (result, (ds, db)) := (op.run type s table i).exec (ds, db)
    let (calls, db) := takeCalls db
    MonadState.set ((ds, reports), db)
    Report.settle
      { result, calls
        record := if showRecord then ds[i]? else none
        records := if op.showsAll then some ds else none
        nested := none }
      mayFail
  | .transaction steps abort value mayFail => do
    let ((ds, reports), db) ← get
    let body := fun (s : Session σ η) => do
      runSteps type takeCalls s steps
      match abort with
      | some text => throw (Error.invalidArgument text)
      | none => return value
    let (result, ((ds, nested), db)) := (s.transaction body).exec ((ds, []), db)
    let (calls, db) := takeCalls db
    MonadState.set ((ds, reports), db)
    Report.settle
      { result := result.map .value, calls, record := none, records := none
        nested := some nested }
      mayFail

/-- Runs steps up to the first that fails. -/
def runSteps (type : RecordType ρ) (takeCalls : StateM σ (List Call)) (s : Session σ η) :
    List Step → Action (Progress ρ × σ) Unit
  | [] => return ()
  | step :: rest => do
    step.run type takeCalls s
    runSteps type takeCalls s rest

end

/-- Runs all steps, whether they fail or not. Gives the records and the reports. -/
def rehearse (type : RecordType ρ) (takeCalls : StateM σ (List Call)) (s : Session σ η) :
    List Step → Progress ρ × σ → Progress ρ × σ
  | [], state => state
  | step :: rest, state =>
    rehearse type takeCalls s rest ((step.run type takeCalls s).exec state).2

end TableRecords.Rehearsal
