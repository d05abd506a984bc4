import TableRecords.Proofs.Except
import TableRecords.Proofs.Session.Serving
import TableRecords.Session.Read
import TableRecords.Session.Write

/-!
# Operations of one call

Apart from the inserts, an operation builds one statement and sends it.  If the statement cannot be
built then the operation is refused and nothing is sent; else there is one call, and no error behind
it is a refusal:

    Refuses  : every error of a builder is a refusal
    SendsOne : what an operation does with what was built
-/

namespace TableRecords

open Rehearsal (Call)

variable {σ η ρ τ α β : Type}

/-! ## Builders -/

/-- Whatever goes wrong is a refusal. -/
def Refuses (x : Except Error α) : Prop := ∀ e, x = .error e → e.isRefusal = true

namespace Refuses

theorem ok (a : α) : Refuses (.ok a) := fun _ h => nomatch h

theorem error {e : Error} (he : e.isRefusal = true) : Refuses (.error e : Except Error α) := by
  intro f hf
  cases hf
  exact he

theorem bind {x : Except Error α} {f : α → Except Error β} (hx : Refuses x)
    (hf : ∀ a, Refuses (f a)) : Refuses (x >>= f) := by
  intro e h
  rcases bind_eq_error_iff.1 h with hx' | ⟨a, -, hfa⟩
  · exact hx e hx'
  · exact hf a e hfa

theorem mapM {f : α → Except Error β} (hf : ∀ a, Refuses (f a)) (xs : List α) :
    Refuses (xs.mapM f) := by
  induction xs with
  | nil => exact ok []
  | cons x xs ih =>
    rw [List.mapM_cons]
    exact (hf x).bind fun y => ih.bind fun ys => ok (y :: ys)

theorem mapError {ε : Type} {x : Except ε α} {f : ε → Error} (hf : ∀ e, (f e).isRefusal = true) :
    Refuses (x.mapError f) := by
  cases x with
  | error e => exact error (hf e)
  | ok a => exact ok a

end Refuses

variable {m : Mapping} {type : RecordType ρ} {table : Table}

theorem refuses_mapping (type : RecordType ρ) : Refuses type.mapping :=
  Refuses.mapError fun _ => rfl

theorem Mapping.refuses_valueOf (d : ρ) (i : m.Index) : Refuses (m.valueOf type d i) :=
  Refuses.mapError fun _ => rfl

theorem Mapping.refuses_keyOf (table : Table) (defaultIdColumn : String) :
    Refuses (m.keyOf table defaultIdColumn) := by
  unfold keyOf
  split
  · refine Refuses.mapM (fun column => ?_) _
    unfold idColumn
    split
    · exact Refuses.ok _
    · exact Refuses.error rfl
  · split
    · exact Refuses.ok _
    · exact Refuses.ok _

theorem Mapping.refuses_keyValue (d : ρ) (i : m.Index) : Refuses (m.keyValue type table d i) := by
  refine (refuses_valueOf d i).bind fun v => ?_
  split
  · exact Refuses.error rfl
  · exact Refuses.ok v

theorem Mapping.refuses_keyValues (key : List m.Index) (d : ρ) :
    Refuses (m.keyValues type table key d) := by
  unfold keyValues
  split
  · exact Refuses.error rfl
  · exact Refuses.mapM (refuses_keyValue d) key

theorem Sql.refuses_withPlaceholders (sql : String) (d : Dialect) (offset argCount : Nat) :
    Refuses (withPlaceholders sql d offset argCount) := by
  unfold withPlaceholders
  dsimp only
  split
  · exact Refuses.ok _
  · exact Refuses.error rfl

namespace Statement

theorem refuses_assignments (key : List m.Index) (skipNulls : Bool) (d : ρ) (is : List m.Index) :
    Refuses (assignments m type key skipNulls d is) := by
  induction is with
  | nil => exact Refuses.ok []
  | cons i is ih =>
    rw [assignments]
    split
    · exact ih
    · exact (Mapping.refuses_valueOf d i).bind fun v => ih.bind fun more => Refuses.ok _

theorem refuses_update (d : Dialect) (key : List m.Index) (skipNulls : Bool) (record : ρ) :
    Refuses (update m type d table key skipNulls record) := by
  refine (Mapping.refuses_keyValues key record).bind fun keyArgs => ?_
  refine (refuses_assignments key skipNulls record m.indexes).bind fun written => ?_
  dsimp only
  split
  · exact Refuses.error rfl
  · exact Refuses.ok _

theorem refuses_deleteByColumns (d : Dialect) (columns : List String) (values : List Value) :
    Refuses (deleteByColumns d table columns values) := by
  unfold deleteByColumns
  split
  · exact Refuses.error rfl
  · split
    · exact Refuses.error rfl
    · exact Refuses.ok _

theorem refuses_delete (d : Dialect) (key : List m.Index) (record : ρ) :
    Refuses (delete m type d table key record) :=
  (Mapping.refuses_keyValues key record).bind fun values => refuses_deleteByColumns d _ values

theorem refuses_select (d : Dialect) (filter : String) (args : List Value) :
    Refuses (select m d table filter args) :=
  (Sql.refuses_withPlaceholders _ d 0 args.length).bind fun _ => Refuses.ok _

theorem refuses_selectSql (d : Dialect) (sql : String) (args : List Value) :
    Refuses (selectSql m d sql args) :=
  (Sql.refuses_withPlaceholders _ d 0 args.length).bind fun _ => Refuses.ok _

end Statement

/-! ## One call -/

/-- Without its call an action is refused and changes nothing.  With it the action logs this call
alone, and is not refused. -/
def Action.SendsOne (log : τ → List Call) (a : Action τ α) (built : Except Error Call) (t : τ) :
    Prop :=
  match built with
  | .error e => a.exec t = (.error e, t) ∧ e.isRefusal = true
  | .ok call => log (a.exec t).2 = log t ++ [call] ∧
      ∀ e, (a.exec t).1 = .error e → e.isRefusal = false

theorem Action.SendsOne.of_refused {log : τ → List Call} {a : Action τ α}
    {built : Except Error Call} {t after : τ} (ha : a.SendsOne log built t) {e : Error}
    (h : a.exec t = (.error e, after)) (he : e.isRefusal = true) : after = t := by
  cases built with
  | error f =>
    rw [ha.1] at h
    cases h
    rfl
  | ok call =>
    have hreported := ha.2 e (congrArg Prod.fst h)
    rw [he] at hreported
    exact absurd hreported (by simp)

theorem Action.SendsOne.congr {log : τ → List Call} {a b : Action τ α}
    {built : Except Error Call} {t : τ} (hb : b.SendsOne log built t) (h : a.exec t = b.exec t) :
    a.SendsOne log built t := by
  unfold SendsOne at hb ⊢
  rw [h]
  exact hb

theorem Action.SendsOne.liftM_bind {log : τ → List Call} {x : Except Error α} {f : α → Action τ β}
    {g : α → Except Error Call} {t : τ} (hx : Refuses x) (hf : ∀ a, (f a).SendsOne log (g a) t) :
    (liftM x >>= f).SendsOne log (x >>= g) t := by
  cases x with
  | error e => exact ⟨exec_bind_error (exec_liftM _ _), hx e rfl⟩
  | ok a =>
    have hrun : (liftM (Except.ok a : Except Error α) >>= f).exec t = (f a).exec t :=
      exec_bind_ok (exec_liftM _ _)
    exact (hf a).congr hrun

namespace Session

section Calls

variable (s : Session σ η) (type : RecordType ρ) (table : Table)

/-- The call of an update or a patch. -/
def updateCall (skipNulls : Bool) (d : ρ) : Except Error Call := do
  let m ← type.mapping
  let key ← s.key m table
  let st ← Statement.update m type s.dialect table key skipNulls d
  return .execute st.sql st.args

/-- The call of a delete. -/
def deleteCall (d : ρ) : Except Error Call := do
  let m ← type.mapping
  let key ← s.key m table
  let st ← Statement.delete m type s.dialect table key d
  return .execute st.sql st.args

/-- The call of a delete by the values of a key. -/
def deleteByKeyCall (values : List Value) : Except Error Call := do
  let columns := if table.idColumns.isEmpty then [s.defaultIdColumn] else table.idColumns
  let st ← Statement.deleteByColumns s.dialect table columns values
  return .execute st.sql st.args

/-- The call of a statement of the caller that returns no rows. -/
def execCall (sql : String) (args : List Value) : Except Error Call := do
  let written ← Sql.withPlaceholders sql s.dialect 0 args.length
  return .execute written args

/-- The call of a read of a table. -/
def selectCall (filter : String) (args : List Value) : Except Error Call := do
  let m ← type.mapping
  let st ← Statement.select m s.dialect table filter args
  return .query st.sql st.args

/-- The call of a read by a statement of the caller. -/
def selectSqlCall (sql : String) (args : List Value) : Except Error Call := do
  let m ← type.mapping
  let st ← Statement.selectSql m s.dialect sql args
  return .query st.sql st.args

end Calls

variable {s : Session σ η} (ha : s.adapter.Serves Cursor.Rectangular)

include ha

theorem sendsOne_executeOnRow (st : Statement) (context : String) (t : σ × List Call) :
    (s.traced.executeOnRow st context).SendsOne (·.2) (.ok (.execute st.sql st.args)) t := by
  obtain ⟨db, calls⟩ := t
  unfold Action.SendsOne executeOnRow
  dsimp only
  rw [Action.exec_bind, exec_execute_traced]
  rcases hexec : (s.execute st).exec db with ⟨r, db₁⟩
  cases r with
  | error e =>
    refine ⟨rfl, fun f hf => ?_⟩
    cases hf
    exact (reported_of_execute ha hexec).isRefusal_eq_false
  | ok result =>
    dsimp only
    split
    · refine ⟨rfl, fun f hf => ?_⟩
      cases hf
      rfl
    · exact ⟨rfl, fun f hf => nomatch hf⟩

theorem sendsOne_execute (sql : String) (args : List Value) (t : σ × List Call) :
    (do return (← s.traced.adapter.execute s.traced.handle sql args).rowsAffected :
      Action (σ × List Call) Nat).SendsOne (·.2) (.ok (.execute sql args)) t := by
  obtain ⟨db, calls⟩ := t
  have htraced : (s.traced.adapter.execute s.traced.handle sql args).exec (db, calls) =
      (((s.adapter.execute s.handle sql args).exec db).1,
        (((s.adapter.execute s.handle sql args).exec db).2, calls ++ [.execute sql args])) := rfl
  unfold Action.SendsOne
  dsimp only
  rw [Action.exec_bind, htraced]
  rcases hexec : (s.adapter.execute s.handle sql args).exec db with ⟨r, db₁⟩
  cases r with
  | error e =>
    refine ⟨rfl, fun f hf => ?_⟩
    cases hf
    obtain ⟨f, rfl⟩ := ha.execute _ _ _ _ _ _ hexec
    rfl
  | ok result => exact ⟨rfl, fun f hf => nomatch hf⟩

theorem sendsOne_update (skipNulls : Bool) (d : ρ) (t : σ × List Call) :
    (s.traced.update type table skipNulls d).SendsOne (·.2)
      (s.updateCall type table skipNulls d) t := by
  refine Action.SendsOne.liftM_bind (refuses_mapping type) fun m => ?_
  refine Action.SendsOne.liftM_bind (Mapping.refuses_keyOf table _) fun key => ?_
  refine Action.SendsOne.liftM_bind (Statement.refuses_update _ key skipNulls d) fun st => ?_
  exact sendsOne_executeOnRow ha st _ t

theorem sendsOne_delete (d : ρ) (t : σ × List Call) :
    (s.traced.delete type table d).SendsOne (·.2)
      (s.deleteCall type table d) t := by
  refine Action.SendsOne.liftM_bind (refuses_mapping type) fun m => ?_
  refine Action.SendsOne.liftM_bind (Mapping.refuses_keyOf table _) fun key => ?_
  refine Action.SendsOne.liftM_bind (Statement.refuses_delete _ key d) fun st => ?_
  exact sendsOne_executeOnRow ha st _ t

theorem sendsOne_deleteByKey (values : List Value) (t : σ × List Call) :
    (s.traced.deleteByKey table values).SendsOne (·.2)
      (s.deleteByKeyCall table values) t := by
  refine Action.SendsOne.liftM_bind (Statement.refuses_deleteByColumns _ _ values) fun st => ?_
  exact sendsOne_executeOnRow ha st _ t

theorem sendsOne_exec (sql : String) (args : List Value) (t : σ × List Call) :
    (s.traced.exec sql args).SendsOne (·.2)
      (s.execCall sql args) t := by
  refine Action.SendsOne.liftM_bind (Sql.refuses_withPlaceholders sql _ 0 _) fun written => ?_
  exact sendsOne_execute ha written args t

variable [JsonLibrary]

theorem sendsOne_scanAll (st : Statement) (t : σ × List Call) :
    (s.traced.scanAll m type st).SendsOne (·.2) (.ok (.query st.sql st.args)) t := by
  obtain ⟨db, calls⟩ := t
  unfold Action.SendsOne
  dsimp only
  rw [exec_scanAll_traced]
  rcases hscan : (s.scanAll m type st).exec db with ⟨r, db₁⟩
  refine ⟨rfl, fun e he => ?_⟩
  obtain rfl : r = .error e := he
  exact (reported_of_scanAll ha hscan).isRefusal_eq_false

theorem sendsOne_firstOf (st : Statement) (t : σ × List Call) :
    (s.traced.firstOf m type st).SendsOne (·.2) (.ok (.query st.sql st.args)) t := by
  obtain ⟨db, calls⟩ := t
  unfold Action.SendsOne firstOf
  dsimp only
  rw [Action.exec_of, exec_scanFirst_traced]
  rcases hscan : (s.scanFirst m type st).exec (type.zero, db) with ⟨r, d, db₁⟩
  match r with
  | .ok true => exact ⟨rfl, fun e he => nomatch he⟩
  | .ok false =>
    refine ⟨rfl, fun e he => ?_⟩
    cases he
    rfl
  | .error f =>
    refine ⟨rfl, fun e he => ?_⟩
    cases he
    exact (reported_of_scanFirst ha hscan).isRefusal_eq_false

/-! ## Operations -/

theorem sendsOne_query (filter : String) (args : List Value) (t : σ × List Call) :
    (s.traced.query type table filter args).SendsOne (·.2)
      (s.selectCall type table filter args) t := by
  refine Action.SendsOne.liftM_bind (refuses_mapping type) fun m => ?_
  refine Action.SendsOne.liftM_bind (Statement.refuses_select _ filter args) fun st => ?_
  exact sendsOne_scanAll ha st t

theorem sendsOne_querySql (sql : String) (args : List Value) (t : σ × List Call) :
    (s.traced.querySql type sql args).SendsOne (·.2)
      (s.selectSqlCall type sql args) t := by
  refine Action.SendsOne.liftM_bind (refuses_mapping type) fun m => ?_
  refine Action.SendsOne.liftM_bind (Statement.refuses_selectSql _ sql args) fun st => ?_
  exact sendsOne_scanAll ha st t

theorem sendsOne_queryOne (filter : String) (args : List Value) (t : σ × List Call) :
    (s.traced.queryOne type table filter args).SendsOne (·.2)
      (s.selectCall type table filter args) t := by
  refine Action.SendsOne.liftM_bind (refuses_mapping type) fun m => ?_
  refine Action.SendsOne.liftM_bind (Statement.refuses_select _ filter args) fun st => ?_
  exact sendsOne_firstOf ha st t

theorem sendsOne_queryOneSql (sql : String) (args : List Value) (t : σ × List Call) :
    (s.traced.queryOneSql type sql args).SendsOne (·.2)
      (s.selectSqlCall type sql args) t := by
  refine Action.SendsOne.liftM_bind (refuses_mapping type) fun m => ?_
  refine Action.SendsOne.liftM_bind (Statement.refuses_selectSql _ sql args) fun st => ?_
  exact sendsOne_firstOf ha st t

end Session
end TableRecords
