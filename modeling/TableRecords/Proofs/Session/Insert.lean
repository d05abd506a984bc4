import TableRecords.Proofs.Session.Trace
import TableRecords.Session.Insert

/-!
# How an insert runs

An insert is checked, and only then sent:

    exec_insertOne : insertOne = checked, then send

`checked` needs no database.  `logs_insertOne` says of the calls that there is none before the
checks are passed, and at least one behind them.
-/

namespace TableRecords

open Rehearsal (Call)

variable {σ η ρ : Type}

theorem exec_forM_liftM {τ α : Type} (f : α → Except Error Unit) (xs : List α) (state : τ) :
    (xs.forM fun x => (liftM (f x) : Action τ Unit)).exec state = (xs.forM f, state) := by
  induction xs with
  | nil => rfl
  | cons x xs ih =>
    show (liftM (f x) >>= fun _ => xs.forM fun x => (liftM (f x) : Action τ Unit)).exec state =
      (f x >>= fun _ => xs.forM f, state)
    rw [Action.exec_bind, Action.exec_liftM]
    cases f x with
    | error e => rfl
    | ok u => exact ih

namespace Session

/-! ## One record -/

variable (s : Session σ η) (m : Mapping) (type : RecordType ρ) (table : Table) (key : List m.Index)

/-- What an insert checks before it sends anything. -/
def checked (d : ρ) : Except Error (InsertStatement m) := do
  let st ← InsertStatement.ofRecord m type s.dialect table key d
  if s.dialect.insertMethod = .lastInsertId then s.checkReadBack m type table key st.readBack
  return st

theorem exec_executeOnly {β : Type} (st : Statement) (b : β) (db : σ) :
    (do let _ ← (s.execute st).onSecond : Action (β × σ) Unit).exec (b, db) =
      (((s.execute st).exec db).1.map fun _ => (), (b, ((s.execute st).exec db).2)) := by
  rw [Action.exec_bind, Action.exec_onSecond]
  rcases (s.execute st).exec db with ⟨r, db₁⟩
  cases r <;> rfl

theorem checkReadBack_nil : s.checkReadBack m type table key [] = .ok () := rfl

theorem checked_of_error {d : ρ} {e : Error}
    (h : InsertStatement.ofRecord m type s.dialect table key d = .error e) :
    s.checked m type table key d = .error e := by
  rw [checked, h]
  rfl

theorem checked_of_ok {d : ρ} {st : InsertStatement m}
    (h : InsertStatement.ofRecord m type s.dialect table key d = .ok st) :
    s.checked m type table key d =
      if s.dialect.insertMethod = .lastInsertId then
        (s.checkReadBack m type table key st.readBack).map fun _ => st
      else .ok st := by
  rw [checked, h]
  show (if s.dialect.insertMethod = .lastInsertId then
    s.checkReadBack m type table key st.readBack >>= fun _ => .ok st else .ok st) = _
  cases s.checkReadBack m type table key st.readBack <;> rfl

theorem ofRecord_of_checked {d : ρ} {st : InsertStatement m}
    (h : s.checked m type table key d = .ok st) :
    InsertStatement.ofRecord m type s.dialect table key d = .ok st := by
  cases hst : InsertStatement.ofRecord m type s.dialect table key d with
  | error e =>
    rw [checked_of_error s m type table key hst] at h
    exact absurd h (by simp)
  | ok st' =>
    rw [checked_of_ok s m type table key hst] at h
    split at h
    · cases hcheck : s.checkReadBack m type table key st'.readBack with
      | error e =>
        rw [hcheck] at h
        exact absurd h (by simp [Except.map])
      | ok u =>
        rw [hcheck] at h
        exact h
    · exact h

theorem checkInsert_eq (d : ρ) (hmethod : s.dialect.insertMethod = .lastInsertId) :
    s.checkInsert m type table key d = (s.checked m type table key d).map fun _ => () := by
  unfold checkInsert
  cases hst : InsertStatement.ofRecord m type s.dialect table key d with
  | error e =>
    rw [checked_of_error s m type table key hst]
    rfl
  | ok st =>
    rw [checked_of_ok s m type table key hst, if_pos hmethod]
    show s.checkReadBack m type table key st.readBack = _
    cases s.checkReadBack m type table key st.readBack <;> rfl

variable [JsonLibrary]

/-- What an insert does once it is checked. -/
def send (st : InsertStatement m) : Action (ρ × σ) Unit :=
  if st.readBack = [] then do
    let _ ← (s.execute st.toStatement).onSecond
  else if s.dialect.insertMethod = .lastInsertId then do
    let result ← (s.execute st.toStatement).onSecond
    s.readAssigned m type table key st.readBack result.lastInsertId
  else s.insertReturning m type st.toStatement

theorem exec_insertOne (d : ρ) (db : σ) :
    (s.insertOne m type table key).exec (d, db) =
      match s.checked m type table key d with
      | .error e => (.error e, (d, db))
      | .ok st => (s.send m type table key st).exec (d, db) := by
  unfold insertOne
  rw [Action.exec_bind_ok (Action.exec_get _)]
  show (liftM _ >>= _ : Action (ρ × σ) Unit).exec (d, db) = _
  cases hst : InsertStatement.ofRecord m type s.dialect table key d with
  | error e =>
    rw [checked_of_error s m type table key hst]
    exact Action.exec_bind_error (Action.exec_liftM _ _)
  | ok st =>
    rw [Action.exec_bind_ok (Action.exec_liftM _ _), checked_of_ok s m type table key hst]
    by_cases hread : st.readBack = []
    · have hempty : st.readBack.isEmpty = true := by simpa using hread
      simp only [hread, checkReadBack_nil, Except.map, ite_self, send, if_true, List.isEmpty_nil]
    · have hempty : ¬ st.readBack.isEmpty = true := by simpa using hread
      rw [if_neg hempty]
      cases hmethod : s.dialect.insertMethod with
      | returning => simp only [reduceCtorEq, if_false, send, hread, hmethod]
      | output => simp only [reduceCtorEq, if_false, send, hread, hmethod]
      | lastInsertId =>
        simp only [insertThenFetch, if_true, Action.exec_bind, Action.exec_liftM]
        cases s.checkReadBack m type table key st.readBack with
        | error e => rfl
        | ok u => simp only [Except.map, send, hread, if_false, hmethod, if_true, Action.exec_bind]

theorem exec_insertOne_of_refused {d : ρ} {e : Error}
    (h : s.checked m type table key d = .error e) (db : σ) :
    (s.insertOne m type table key).exec (d, db) = (.error e, (d, db)) := by
  rw [exec_insertOne, h]

theorem exec_insertOne_of_checked {d : ρ} {st : InsertStatement m}
    (h : s.checked m type table key d = .ok st) (db : σ) :
    (s.insertOne m type table key).exec (d, db) =
      (s.send m type table key st).exec (d, db) := by
  rw [exec_insertOne, h]

theorem exec_insertReturning (st : Statement) (d : ρ) (db : σ) :
    (s.insertReturning m type st).exec (d, db) =
      match (s.scanFirst m type st).exec (d, db) with
      | (.ok true, after) => (.ok (), after)
      | (.ok false, after) => (.error (driverFault st "insert returned no row"), after)
      | (.error e, after) => (.error e, after) := by
  unfold insertReturning
  rw [Action.exec_bind]
  split
  · next found after h =>
    rw [h]
    cases found <;> rfl
  · next e after h => rw [h]

theorem exec_readAssigned (pending : List m.Index) (id : Option Int64) (d : ρ) (db : σ) :
    (s.readAssigned m type table key pending id).exec (d, db) =
      match takeId m type key pending id d with
      | .error e => (.error e, (d, db))
      | .ok (d, pending) =>
        if pending = [] then (.ok (), (d, db))
        else
          match Statement.fetch m type s.dialect table key pending d with
          | .error e => (.error e, (d, db))
          | .ok fetch =>
            match (s.scanFirst m type fetch).exec (d, db) with
            | (.ok true, after) => (.ok (), after)
            | (.ok false, after) =>
              (.error (.notFound s!"inserted row in {table.name} could not be read back"), after)
            | (.error e, after) => (.error e, after) := by
  unfold readAssigned
  rw [Action.exec_bind_ok (Action.exec_get _)]
  show (liftM _ >>= _ : Action (ρ × σ) Unit).exec (d, db) = _
  rw [Action.exec_bind, Action.exec_liftM]
  cases takeId m type key pending id d with
  | error e => rfl
  | ok taken =>
    obtain ⟨d₁, pending₁⟩ := taken
    show (set (d₁, db) >>= _ : Action (ρ × σ) Unit).exec (d, db) = _
    rw [Action.exec_bind_ok (Action.exec_set _ _)]
    by_cases hpending : pending₁ = []
    · simp only [hpending, List.isEmpty_nil, if_true]
      rfl
    · have hempty : ¬ pending₁.isEmpty = true := by simpa using hpending
      simp only [if_neg hempty, if_neg hpending]
      show (liftM _ >>= _ : Action (ρ × σ) Unit).exec (d₁, db) = _
      rw [Action.exec_bind, Action.exec_liftM]
      cases Statement.fetch m type s.dialect table key pending₁ d₁ with
      | error e => rfl
      | ok fetch =>
        simp only [Action.exec_bind]
        rcases (s.scanFirst m type fetch).exec (d₁, db) with ⟨r, after⟩
        match r with
        | .ok true => rfl
        | .ok false => rfl
        | .error e => rfl

theorem exec_send (st : InsertStatement m) (d : ρ) (db : σ) :
    (s.send m type table key st).exec (d, db) =
      if st.readBack = [] then
        (((s.execute st.toStatement).exec db).1.map fun _ => (),
          (d, ((s.execute st.toStatement).exec db).2))
      else if s.dialect.insertMethod = .lastInsertId then
        match (s.execute st.toStatement).exec db with
        | (.error e, db) => (.error e, (d, db))
        | (.ok result, db) =>
          (s.readAssigned m type table key st.readBack result.lastInsertId).exec (d, db)
      else (s.insertReturning m type st.toStatement).exec (d, db) := by
  unfold send
  split
  · exact s.exec_executeOnly st.toStatement d db
  · split
    · rw [Action.exec_bind, Action.exec_onSecond]
      rcases (s.execute st.toStatement).exec db with ⟨r, db₁⟩
      cases r <;> rfl
    · rfl

/-! ## The calls of one insert -/

theorem logs_insertReturning (st : Statement) (d : ρ) (db : σ) (calls : List Call) :
    (s.traced.insertReturning m type st).Logs (s.insertReturning m type st)
      [.query st.sql st.args] d db calls := by
  unfold Action.Logs
  rw [exec_insertReturning, exec_insertReturning, exec_scanFirst_traced]
  rcases (s.scanFirst m type st).exec (d, db) with ⟨r, d₁, db₁⟩
  match r with
  | .ok true => rfl
  | .ok false => rfl
  | .error e => rfl

theorem logs_readAssigned (pending : List m.Index) (id : Option Int64) (d : ρ) (db : σ)
    (calls : List Call) :
    ∃ more, (s.traced.readAssigned m type table key pending id).Logs
      (s.readAssigned m type table key pending id) more d db calls := by
  unfold Action.Logs
  simp only [exec_readAssigned, dialect_traced]
  cases takeId m type key pending id d with
  | error e => exact ⟨[], by rw [List.append_nil]⟩
  | ok taken =>
    obtain ⟨d₁, pending₁⟩ := taken
    by_cases hpending : pending₁ = []
    · simp only [if_pos hpending]
      exact ⟨[], by rw [List.append_nil]⟩
    · simp only [if_neg hpending]
      cases Statement.fetch m type s.dialect table key pending₁ d₁ with
      | error e => exact ⟨[], by rw [List.append_nil]⟩
      | ok fetch =>
        refine ⟨[.query fetch.sql fetch.args], ?_⟩
        simp only [exec_scanFirst_traced]
        rcases (s.scanFirst m type fetch).exec (d₁, db) with ⟨r, d₂, db₁⟩
        match r with
        | .ok true => rfl
        | .ok false => rfl
        | .error e => rfl

/-- What is sent is at least one call. -/
theorem logs_send (st : InsertStatement m) (d : ρ) (db : σ) (calls : List Call) :
    ∃ call more, (s.traced.send m type table key st).Logs (s.send m type table key st)
      (call :: more) d db calls := by
  unfold Action.Logs
  rw [exec_send, exec_send, exec_execute_traced]
  by_cases hread : st.readBack = []
  · rw [if_pos hread, if_pos hread]
    exact ⟨.execute st.sql st.args, [], rfl⟩
  · rw [if_neg hread, if_neg hread]
    by_cases hmethod : s.dialect.insertMethod = .lastInsertId
    · have htraced : s.traced.dialect.insertMethod = .lastInsertId := hmethod
      rw [if_pos hmethod, if_pos htraced]
      rcases (s.execute st.toStatement).exec db with ⟨r, db₁⟩
      cases r with
      | error e => exact ⟨.execute st.sql st.args, [], rfl⟩
      | ok result =>
        obtain ⟨more, hmore⟩ := s.logs_readAssigned m type table key st.readBack
          result.lastInsertId d db₁ (calls ++ [.execute st.sql st.args])
        refine ⟨.execute st.sql st.args, more, hmore.trans ?_⟩
        rw [List.append_assoc]
        rfl
    · have htraced : ¬ s.traced.dialect.insertMethod = .lastInsertId := hmethod
      rw [if_neg hmethod, if_neg htraced]
      exact ⟨.query st.sql st.args, [], s.logs_insertReturning m type st.toStatement d db calls⟩

/-- **An insert calls the adapter if and only if it is past its checks.** -/
theorem logs_insertOne (d : ρ) (db : σ) (calls : List Call) :
    ∃ more, (s.traced.insertOne m type table key).Logs (s.insertOne m type table key) more
        d db calls ∧
      (more = [] ↔ ∃ e, s.checked m type table key d = .error e) := by
  have htraced : s.traced.checked m type table key d = s.checked m type table key d := rfl
  unfold Action.Logs
  simp only [exec_insertOne, htraced]
  cases s.checked m type table key d with
  | error e => exact ⟨[], by rw [List.append_nil], by simp⟩
  | ok st =>
    obtain ⟨call, more, hlogs⟩ := s.logs_send m type table key st d db calls
    exact ⟨call :: more, hlogs, by simp⟩

/-! ## Several records -/

theorem insertEach_cons_of_error {d d₁ : ρ} {db db₁ : σ} {e : Error}
    (h : (s.insertOne m type table key).exec (d, db) = (.error e, (d₁, db₁))) (ds : List ρ) :
    s.insertEach m type table key (d :: ds) db = (.error e, (d₁ :: ds, db₁)) := by
  rw [insertEach, h]

theorem insertEach_cons_of_ok {d d₁ : ρ} {db db₁ : σ}
    (h : (s.insertOne m type table key).exec (d, db) = (.ok (), (d₁, db₁))) (ds : List ρ) :
    s.insertEach m type table key (d :: ds) db =
      ((s.insertEach m type table key ds db₁).1,
        (d₁ :: (s.insertEach m type table key ds db₁).2.1,
          (s.insertEach m type table key ds db₁).2.2)) := by
  rw [insertEach, h]

theorem logs_insertEach (ds : List ρ) (db : σ) (calls : List Call) :
    ∃ more, s.traced.insertEach m type table key ds (db, calls) =
        ((s.insertEach m type table key ds db).1, ((s.insertEach m type table key ds db).2.1,
          ((s.insertEach m type table key ds db).2.2, calls ++ more))) ∧
      (more = [] → ∀ d ∈ ds.head?, ∃ e, s.checked m type table key d = .error e) := by
  induction ds generalizing db calls with
  | nil => exact ⟨[], by rw [List.append_nil]; rfl, by simp⟩
  | cons d ds ih =>
    obtain ⟨more, hlogs, hmore⟩ := s.logs_insertOne m type table key d db calls
    unfold Action.Logs at hlogs
    rcases hrun : (s.insertOne m type table key).exec (d, db) with ⟨r, d₁, db₁⟩
    rw [hrun] at hlogs
    have hhead : more = [] → ∀ d' ∈ (d :: ds).head?,
        ∃ e, s.checked m type table key d' = .error e := by
      intro hnil d' hd'
      obtain rfl : d = d' := by simpa using hd'
      exact hmore.1 hnil
    cases r with
    | error e =>
      refine ⟨more, ?_, hhead⟩
      rw [insertEach_cons_of_error _ _ _ _ _ hlogs, insertEach_cons_of_error _ _ _ _ _ hrun]
    | ok u =>
      obtain ⟨later, hlater, -⟩ := ih db₁ (calls ++ more)
      refine ⟨more ++ later, ?_, fun hnil => hhead (List.append_eq_nil_iff.1 hnil).1⟩
      rw [insertEach_cons_of_ok _ _ _ _ _ hlogs, insertEach_cons_of_ok _ _ _ _ _ hrun, hlater,
        List.append_assoc]

/-- What an insert of several records by one statement does once it is built. -/
def sendMany (st : InsertStatement m) : Action (List ρ × σ) Unit :=
  if st.readBack = [] then do
    let _ ← (s.execute st.toStatement).onSecond
  else s.insertAllReturning m type st.toStatement

theorem exec_sendMany (st : InsertStatement m) (ds : List ρ) (db : σ) :
    (s.sendMany m type st).exec (ds, db) =
      if st.readBack = [] then
        (((s.execute st.toStatement).exec db).1.map fun _ => (),
          (ds, ((s.execute st.toStatement).exec db).2))
      else (s.insertAllReturning m type st.toStatement).exec (ds, db) := by
  unfold sendMany
  split
  · exact s.exec_executeOnly st.toStatement ds db
  · rfl

theorem logs_sendMany (st : InsertStatement m) (ds : List ρ) (db : σ) (calls : List Call) :
    ∃ call, (s.traced.sendMany m type st).Logs (s.sendMany m type st) [call] ds db calls := by
  unfold Action.Logs
  rw [exec_sendMany, exec_sendMany, exec_execute_traced]
  by_cases hread : st.readBack = []
  · rw [if_pos hread, if_pos hread]
    exact ⟨.execute st.sql st.args, rfl⟩
  · rw [if_neg hread, if_neg hread]
    exact ⟨.query st.sql st.args, rfl⟩

theorem exec_insert (d : ρ) (db : σ) :
    (s.insert type table).exec (d, db) =
      match type.mapping with
      | .error e => (.error e, (d, db))
      | .ok m =>
        match s.key m table with
        | .error e => (.error e, (d, db))
        | .ok key => (s.insertOne m type table key).exec (d, db) := by
  unfold insert
  rw [Action.exec_bind, Action.exec_liftM]
  cases type.mapping with
  | error e => rfl
  | ok m =>
    simp only [Action.exec_bind, Action.exec_liftM]
    cases s.key m table <;> rfl

theorem exec_insertAll (ds : List ρ) (db : σ) :
    (s.insertAll type table).exec (ds, db) =
      if ds = [] then (.ok (), (ds, db))
      else
        match type.mapping with
        | .error e => (.error e, (ds, db))
        | .ok m =>
          match s.key m table with
          | .error e => (.error e, (ds, db))
          | .ok key =>
            if s.dialect.insertMethod = .lastInsertId then
              match ds.forM (s.checkInsert m type table key) with
              | .error e => (.error e, (ds, db))
              | .ok () => s.insertEach m type table key ds db
            else
              match InsertStatement.ofRecords m type s.dialect table key ds with
              | .error e => (.error e, (ds, db))
              | .ok st => (s.sendMany m type st).exec (ds, db) := by
  unfold insertAll
  rw [Action.exec_bind_ok (Action.exec_get _)]
  by_cases hds : ds = []
  · rw [hds]
    rfl
  · have hempty : ¬ ds.isEmpty = true := by simpa using hds
    simp only [if_neg hempty, if_neg hds, Action.exec_bind, Action.exec_liftM]
    cases type.mapping with
    | error e => rfl
    | ok m =>
      dsimp only
      cases s.key m table with
      | error e => rfl
      | ok key =>
        by_cases hmethod : s.dialect.insertMethod = .lastInsertId
        · simp only [if_pos hmethod, Action.exec_bind, exec_forM_liftM]
          cases ds.forM (s.checkInsert m type table key) <;> rfl
        · simp only [if_neg hmethod, Action.exec_bind, Action.exec_liftM]
          cases InsertStatement.ofRecords m type s.dialect table key ds with
          | error e => rfl
          | ok st =>
            by_cases hread : st.readBack = []
            · simp only [sendMany, hread, List.isEmpty_nil, if_true]
            · have hempty : ¬ st.readBack.isEmpty = true := by simpa using hread
              simp only [sendMany, if_neg hempty, if_neg hread]

end Session
end TableRecords
