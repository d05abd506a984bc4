import TableRecords.Proofs.Record.NormalForm
import TableRecords.Proofs.Rehearsal.Script
import TableRecords.Proofs.Session.OneCall
import TableRecords.Proofs.Session.Refused
import TableRecords.Rehearsal.Step

/-!
# Refused operations

An operation is refused before anything happens.  One that is not refused makes the call of the
statement that it built; only inserts may make more:

    run_of_refused : a refused operation changes nothing and calls nothing
    sendsOne_run   : every operation but an insert makes its one call, or is refused
-/

namespace TableRecords.Rehearsal

variable {σ η ρ : Type}

namespace Operation

/-- The one call of an operation.  Inserts may need two, and a field is set without a call. -/
def call? (type : RecordType ρ) (s : Session σ η) (table : Table) (d : ρ) :
    Operation → Option (Except Error Call)
  | update => some (s.updateCall type table false d)
  | patch => some (s.updateCall type table true d)
  | delete => some (s.deleteCall type table d)
  | deleteById id => some (s.deleteByKeyCall table [id])
  | deleteByKey values => some (s.deleteByKeyCall table values)
  | exec sql args => some (s.execCall sql args)
  | query filter args => some (s.selectCall type table filter args)
  | querySql sql args => some (s.selectSqlCall type sql args)
  | queryOne filter args => some (s.selectCall type table filter args)
  | queryOneSql sql args => some (s.selectSqlCall type sql args)
  | insert | insertAll | set .. | close => none

/-- Whether an operation works on the record of its step. -/
def usesRecord : Operation → Bool
  | insert | update | patch | delete | set .. => true
  | _ => false

end Operation

/-! ## Actions on records -/

theorem sendsOne_onSecond {α : Type} {a : Action (σ × List Call) α} {f : α → Outcome ρ}
    {built : Except Error Call} {ds : List ρ} {t : σ × List Call} (ha : a.SendsOne (·.2) built t) :
    (a.onSecond >>= fun x => pure (f x)).SendsOne (fun state => state.2.2) built (ds, t) := by
  unfold Action.SendsOne at ha ⊢
  rw [Action.exec_bind, Action.exec_onSecond]
  rcases hrun : a.exec t with ⟨r, t'⟩
  rw [hrun] at ha
  cases built with
  | error e =>
    obtain ⟨hexec, he⟩ := ha
    cases hexec
    exact ⟨rfl, he⟩
  | ok call =>
    obtain ⟨hlog, hreported⟩ := ha
    cases r with
    | error e =>
      refine ⟨hlog, fun f hf => ?_⟩
      cases hf
      exact hreported e rfl
    | ok x => exact ⟨hlog, fun f hf => nomatch hf⟩

theorem exec_withRecord {i : Nat} {ds : List ρ} {d : ρ} (hd : ds[i]? = some d)
    (a : ρ → Action σ Unit) (db : σ) :
    (withRecord i a).exec (ds, db) = (a d).onSecond.exec (ds, db) := by
  unfold withRecord
  rw [Action.exec_bind_ok (Action.exec_get _)]
  dsimp only
  rw [hd]

theorem exec_withRecord_of_none {i : Nat} {ds : List ρ} (hd : ds[i]? = none)
    (a : ρ → Action σ Unit) (db : σ) : (withRecord i a).exec (ds, db) = (.ok (), (ds, db)) := by
  unfold withRecord
  rw [Action.exec_bind_ok (Action.exec_get _)]
  dsimp only
  rw [hd]
  rfl

theorem sendsOne_withRecord {i : Nat} {ds : List ρ} {d : ρ} (hd : ds[i]? = some d)
    {a : ρ → Action (σ × List Call) Unit} {built : Except Error Call} {t : σ × List Call}
    (ha : (a d).SendsOne (·.2) built t) :
    (withRecord i a >>= fun _ => pure .done : Action _ (Outcome ρ)).SendsOne
      (fun state => state.2.2) built (ds, t) := by
  have hsends := @sendsOne_onSecond _ ρ _ _ (fun _ => .done) _ ds _ ha
  refine hsends.congr ?_
  rw [Action.exec_bind, Action.exec_bind, exec_withRecord hd]

/-- A refused insert on one record of several. -/
theorem onRecord_of_refused {i : Nat} {a : Action (ρ × σ) Unit} {ds : List ρ} {db : σ}
    (ha : ∀ d e after, a.exec (d, db) = (.error e, after) → e.isRefusal = true → after = (d, db))
    {e : Error} {after : List ρ × σ} (h : (onRecord i a).exec (ds, db) = (.error e, after))
    (he : e.isRefusal = true) : after = (ds, db) := by
  rw [onRecord, Action.exec_of] at h
  dsimp only at h
  cases hd : ds[i]? with
  | none =>
    rw [hd] at h
    exact absurd h (by simp)
  | some d =>
    rw [hd] at h
    dsimp only at h
    rcases hrun : a.exec (d, db) with ⟨r, d', db'⟩
    rw [hrun] at h
    cases h
    obtain ⟨rfl, rfl⟩ := Prod.mk.inj (ha d e _ hrun he)
    obtain ⟨hi, rfl⟩ := List.getElem?_eq_some_iff.1 hd
    rw [List.set_getElem_self]

theorem error_of_done {τ : Type} {a : Action τ Unit} {t after : τ} {e : Error}
    (h : (a >>= fun _ => pure .done : Action τ (Outcome ρ)).exec t = (.error e, after)) :
    a.exec t = (.error e, after) := by
  rw [Action.exec_bind] at h
  rcases hrun : a.exec t with ⟨r, t'⟩
  rw [hrun] at h
  cases r with
  | error f =>
    cases h
    rfl
  | ok u => exact nomatch h

/-! ## Main result -/

namespace Operation

variable {type : RecordType ρ} {s : Session σ η} {table : Table} {op : Operation} {i : Nat}

theorem exists_call?_eq_some (hinsert : op ≠ insert) (hinsertAll : op ≠ insertAll)
    (hset : ∀ path v, op ≠ set path v) (hclose : op ≠ close) (type : RecordType ρ)
    (s : Session σ η) (table : Table) (d : ρ) : ∃ built, op.call? type s table d = some built := by
  cases op with
  | insert => exact absurd rfl hinsert
  | insertAll => exact absurd rfl hinsertAll
  | set path v => exact absurd rfl (hset path v)
  | close => exact absurd rfl hclose
  | _ => exact ⟨_, rfl⟩

variable [JsonLibrary]

theorem sendsOne_run (ha : s.adapter.Serves Cursor.Rectangular) {ds : List ρ} {d : ρ}
    (hd : op.usesRecord = true → ds[i]? = some d) {built : Except Error Call}
    (h : op.call? type s table d = some built) (t : σ × List Call) :
    (op.run type s.traced table i).SendsOne (fun state => state.2.2) built (ds, t) := by
  cases op with
  | insert | insertAll | set path v | close => exact nomatch h
  | update =>
    cases h
    exact sendsOne_withRecord (hd rfl) (Session.sendsOne_update ha false d t)
  | patch =>
    cases h
    exact sendsOne_withRecord (hd rfl) (Session.sendsOne_update ha true d t)
  | delete =>
    cases h
    exact sendsOne_withRecord (hd rfl) (Session.sendsOne_delete ha d t)
  | deleteById id =>
    cases h
    exact sendsOne_onSecond (Session.sendsOne_deleteByKey ha [id] t)
  | deleteByKey values =>
    cases h
    exact sendsOne_onSecond (Session.sendsOne_deleteByKey ha values t)
  | exec sql args =>
    cases h
    exact sendsOne_onSecond (Session.sendsOne_exec ha sql args t)
  | query filter args =>
    cases h
    exact sendsOne_onSecond (Session.sendsOne_query ha filter args t)
  | querySql sql args =>
    cases h
    exact sendsOne_onSecond (Session.sendsOne_querySql ha sql args t)
  | queryOne filter args =>
    cases h
    exact sendsOne_onSecond (Session.sendsOne_queryOne ha filter args t)
  | queryOneSql sql args =>
    cases h
    exact sendsOne_onSecond (Session.sendsOne_queryOneSql ha sql args t)

/-- A record that is not there is neither refused nor sent. -/
theorem exec_run_of_none {ds : List ρ} (hi : ds[i]? = none) (huses : op.usesRecord = true)
    (db : σ) : (op.run type s table i).exec (ds, db) = (.ok .done, (ds, db)) := by
  cases op with
  | insert =>
    have hrun : (onRecord i (s.insert type table)).exec (ds, db) = (.ok (), (ds, db)) := by
      rw [onRecord, Action.exec_of]
      dsimp only
      rw [hi]
    exact Action.exec_bind_ok hrun
  | update => exact Action.exec_bind_ok (exec_withRecord_of_none hi _ db)
  | patch => exact Action.exec_bind_ok (exec_withRecord_of_none hi _ db)
  | delete => exact Action.exec_bind_ok (exec_withRecord_of_none hi _ db)
  | set path v =>
    rw [run, setField, Action.exec_of]
    dsimp only
    rw [hi]
  | _ => exact nomatch huses

theorem run_of_refused {F : type.Fields} (hcodec : ∀ p, (F.codec p).KeepsAssigned)
    (ha : s.adapter.Serves Cursor.Rectangular) (hids : s.adapter.ReportsIds) (hclose : op ≠ close)
    {ds : List ρ} {t : σ × List Call} {e : Error} {after : List ρ × σ × List Call}
    (h : (op.run type s.traced table i).exec (ds, t) = (.error e, after))
    (he : e.isRefusal = true) : after = (ds, t) := by
  by_cases hmissing : op.usesRecord = true ∧ ds[i]? = none
  · rw [exec_run_of_none hmissing.2 hmissing.1] at h
    exact nomatch h
  · have hd : op.usesRecord = true → ds[i]? = some (ds[i]?.getD type.zero) := by
      intro huses
      cases hget : ds[i]? with
      | none => exact absurd ⟨huses, hget⟩ hmissing
      | some d => rfl
    cases hcall : op.call? type s table (ds[i]?.getD type.zero) with
    | some built => exact (sendsOne_run ha hd hcall t).of_refused h he
    | none =>
      cases op with
      | insert =>
        refine onRecord_of_refused (fun d f after hrun hf => ?_) (error_of_done h) he
        exact Session.insert_of_refused hcodec ha.traced hids.traced hrun hf
      | insertAll =>
        exact Session.insertAll_of_refused hcodec ha.traced hids.traced (error_of_done h) he
      | set path v =>
        rw [run, setField, Action.exec_of] at h
        dsimp only at h
        split at h
        · exact nomatch h
        · split at h
          · exact nomatch h
          · exact nomatch h
      | close => exact absurd rfl hclose
      | _ => exact nomatch hcall

/-- **A refused operation has done nothing, and any other makes its one call.**  An operation is
refused before the first call, and leaves all records as they are.  Unless it is an insert, it
builds the text and the arguments of one call: if they cannot be built then it is refused, and else
it makes this call alone and is not refused. -/
theorem refused_or_sendsOne (F : type.Fields) (hlibrary : ∀ p, (F.codec p).OfLibrary)
    (table : Table) (s : Session σ η) (ha : s.adapter.Serves Cursor.Rectangular)
    (hids : s.adapter.ReportsIds) (op : Operation) (hclose : op ≠ close) (i : Nat) (ds : List ρ)
    (t : σ × List Call) :
    (∀ e after, (op.run type s.traced table i).exec (ds, t) = (.error e, after) →
      e.isRefusal = true → after = (ds, t)) ∧
    ∀ d, (op.usesRecord = true → ds[i]? = some d) →
      op ≠ insert → op ≠ insertAll → (∀ path v, op ≠ set path v) →
      ∃ built, op.call? type s table d = some built ∧
        (op.run type s.traced table i).SendsOne (fun state => state.2.2) built (ds, t) := by
  have hcodec : ∀ p, (F.codec p).KeepsAssigned := fun p => (hlibrary p).keepsAssigned
  refine ⟨fun e after => run_of_refused hcodec ha hids hclose,
    fun d hd hinsert hinsertAll hset => ?_⟩
  obtain ⟨built, hcall⟩ := exists_call?_eq_some hinsert hinsertAll hset hclose type s table d
  exact ⟨built, hcall, sendsOne_run ha hd hcall t⟩

end Operation

/-! ## A numbering driver -/

/-- An adapter without rows that gives the number one to the row of a statement. -/
def numberingAdapter : Adapter Unit Unit where
  dialectName := "sqlite3"
  execute _ _ _ := pure ⟨1, some 1⟩
  query _ _ _ visit := .of fun (b, db) =>
    let (r, (b, _)) := visit.exec (b, { columns := [], rows := [] })
    (r, (b, db))
  transaction handle body := body handle
  close _ := pure ()

theorem numberingAdapter_serves : numberingAdapter.Serves Cursor.Rectangular where
  execute _ _ _ _ _ _ h := nomatch h
  query _ _ _ visit b _ e _ h := by
    refine .inr ⟨b, { columns := [], rows := [] }, ?_, ?_, congrArg Prod.fst h⟩
    · exact fun e he => absurd he List.not_mem_nil
    · exact fun values hvalues => absurd hvalues List.not_mem_nil

theorem numberingAdapter_reportsIds : numberingAdapter.ReportsIds := by
  intro handle sql args db result db' h
  cases h
  exact ⟨1, rfl, by decide⟩

/-- A session whose driver reports ids. -/
def numberingSession : Session Unit Unit := ⟨numberingAdapter, (), .sqlite, "id"⟩

/-- The fields of drafts. -/
def draftFields : (draftShape.recordType "Draft").Fields := draftShape.fields "Draft"

theorem exec_update_draft :
    (Operation.update.run (draftShape.recordType "Draft") numberingSession.traced ⟨"t", []⟩ 0).exec
      ([draft], ((), [])) = (.error (.missingPrimaryKey "t" "id"), ([draft], ((), []))) := by
  rfl

theorem refused_or_sendsOne_draft :
    (∀ p, (draftFields.codec p).OfLibrary) ∧
      numberingSession.adapter.Serves Cursor.Rectangular ∧
      numberingSession.adapter.ReportsIds ∧
      (∃ e after, (Operation.update.run (draftShape.recordType "Draft") numberingSession.traced
          ⟨"t", []⟩ 0).exec ([draft], ((), [])) = (.error e, after) ∧ after = ([draft], ((), []))) ∧
      ∃ built, (Operation.deleteById (.integer 7)).call? (draftShape.recordType "Draft")
          numberingSession ⟨"t", []⟩ draft = some built ∧
        ((Operation.deleteById (.integer 7)).run (draftShape.recordType "Draft")
          numberingSession.traced ⟨"t", []⟩ 0).SendsOne (fun state => state.2.2) built
          ([draft], ((), [])) := by
  have hlibrary (p : draftFields.Place) : (draftFields.codec p).OfLibrary := .fieldType p.type
  have ha : numberingSession.adapter.Serves Cursor.Rectangular := numberingAdapter_serves
  have hids : numberingSession.adapter.ReportsIds := numberingAdapter_reportsIds
  refine ⟨hlibrary, ha, hids, ⟨_, _, exec_update_draft, ?_⟩, ?_⟩
  · exact (Operation.refused_or_sendsOne draftFields hlibrary ⟨"t", []⟩ numberingSession ha hids
      .update (by simp) 0 [draft] ((), [])).1 _ _ exec_update_draft rfl
  · exact (Operation.refused_or_sendsOne draftFields hlibrary ⟨"t", []⟩ numberingSession ha hids
      (.deleteById (.integer 7)) (by simp) 0 [draft] ((), [])).2 draft (fun h => nomatch h)
      (by simp) (by simp) (by simp)

end TableRecords.Rehearsal
