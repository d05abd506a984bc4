import TableRecords.Proofs.Action
import TableRecords.Rehearsal.Script
import TableRecords.Session.Basic

/-!
# Tracing the calls of an adapter

`Adapter.traced` is an adapter that keeps a log of its calls beside the state of another one and
answers as that one does.  A call is one entry of the log, whether it succeeds or fails:

    exec_execute_traced, exec_scanFirst_traced, exec_scanAll_traced
-/

namespace TableRecords

open Rehearsal (Call)

variable {σ η ρ : Type}

/-- The same adapter with a log of its calls. -/
def Adapter.traced (a : Adapter σ η) : Adapter (σ × List Call) η where
  dialectName := a.dialectName
  execute handle sql args := .of fun (db, calls) =>
    let (r, db) := (a.execute handle sql args).exec db
    (r, (db, calls ++ [.execute sql args]))
  query handle sql args visit := .of fun (b, (db, calls)) =>
    let (r, (b, db)) := (a.query handle sql args visit).exec (b, db)
    (r, (b, (db, calls ++ [.query sql args])))
  transaction {β} handle body := .of fun (b, (db, calls)) =>
    let inner (handle : η) : Action ((β × List Call) × σ) Unit := .of fun ((b, calls), db) =>
      let (r, (b, (db, calls))) := (body handle).exec (b, (db, calls))
      (r, ((b, calls), db))
    let (r, ((b, calls), db)) :=
      (a.transaction handle inner).exec ((b, calls ++ [.begin]), db)
    let outcome := match r with
      | .ok () => Call.commit
      | .error _ => Call.rollback
    (r, (b, (db, calls ++ [outcome])))
  close handle := .of fun (db, calls) =>
    let (r, db) := (a.close handle).exec db
    (r, (db, calls ++ [.close]))

/-- From a state of the caller and the adapter, `t` does what `a` does and logs `more` besides. -/
def Action.Logs {β α : Type} (t : Action (β × (σ × List Call)) α) (a : Action (β × σ) α)
    (more : List Call) (b : β) (db : σ) (calls : List Call) : Prop :=
  t.exec (b, (db, calls)) = ((a.exec (b, db)).1,
    ((a.exec (b, db)).2.1, ((a.exec (b, db)).2.2, calls ++ more)))

namespace Session

/-- The same session with a log of the calls of its adapter. -/
def traced (s : Session σ η) : Session (σ × List Call) η :=
  ⟨s.adapter.traced, s.handle, s.dialect, s.defaultIdColumn⟩

@[simp] theorem dialect_traced (s : Session σ η) : s.traced.dialect = s.dialect := rfl

@[simp] theorem key_traced (s : Session σ η) (m : Mapping) (table : Table) :
    s.traced.key m table = s.key m table := rfl

theorem exec_execute_traced (s : Session σ η) (st : Statement) (db : σ) (calls : List Call) :
    (s.traced.execute st).exec (db, calls) =
      (((s.execute st).exec db).1,
        (((s.execute st).exec db).2, calls ++ [.execute st.sql st.args])) := rfl

variable [JsonLibrary]

theorem exec_scanFirst_traced (s : Session σ η) (m : Mapping) (type : RecordType ρ)
    (st : Statement) (d : ρ) (db : σ) (calls : List Call) :
    (s.traced.scanFirst m type st).exec (d, (db, calls)) =
      (((s.scanFirst m type st).exec (d, db)).1,
        (((s.scanFirst m type st).exec (d, db)).2.1,
          (((s.scanFirst m type st).exec (d, db)).2.2, calls ++ [.query st.sql st.args]))) := rfl

theorem exec_scanAll_traced (s : Session σ η) (m : Mapping) (type : RecordType ρ)
    (st : Statement) (db : σ) (calls : List Call) :
    (s.traced.scanAll m type st).exec (db, calls) =
      (((s.scanAll m type st).exec db).1,
        (((s.scanAll m type st).exec db).2, calls ++ [.query st.sql st.args])) := rfl

end Session
end TableRecords
