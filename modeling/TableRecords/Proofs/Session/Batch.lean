import TableRecords.Proofs.Session.Assigned

/-!
# Inserting records one after the other

Where the driver reports the ids of rows, the insert of several records first looks at all of them.
If one is refused then nothing is done; otherwise it cannot be told from inserting them one by one:

    insertAll = .error e, and nothing happens             if `e` is the first refusal
    insertAll = insert on each record                     if no record is refused
                                                          (insertAll_refused_or_onEach)
-/

namespace TableRecords

variable {σ η ρ : Type}

/-- Runs an action on records one after the other, up to the first on which it fails. -/
def Action.onEach (a : Action (ρ × σ) Unit) : List ρ → σ → Except Error Unit × (List ρ × σ)
  | [], db => (.ok (), ([], db))
  | d :: rest, db =>
    match a.exec (d, db) with
    | (.error e, (d, db)) => (.error e, (d :: rest, db))
    | (.ok (), (d, db)) =>
      let (r, (rest, db)) := onEach a rest db
      (r, (d :: rest, db))

namespace Session

/-- Whether the insert of a record can be built, and read back by the id of a row. -/
def validate (s : Session σ η) (type : RecordType ρ) (table : Table) (d : ρ) :
    Except Error Unit := do
  let m ← type.mapping
  let key ← s.key m table
  s.checkInsert m type table key d

variable {s : Session σ η} {type : RecordType ρ} {table : Table}

theorem validate_of_mapping {m : Mapping} {key : List m.Index} (hm : type.mapping = .ok m)
    (hkey : s.key m table = .ok key) (d : ρ) :
    s.validate type table d = s.checkInsert m type table key d := by
  rw [validate, hm]
  show (s.key m table >>= fun key => s.checkInsert m type table key d) = _
  rw [hkey]
  rfl

variable [JsonLibrary]

theorem exec_insert_of_mapping {m : Mapping} {key : List m.Index} (hm : type.mapping = .ok m)
    (hkey : s.key m table = .ok key) (d : ρ) (db : σ) :
    (s.insert type table).exec (d, db) = (s.insertOne m type table key).exec (d, db) := by
  rw [exec_insert, hm]
  dsimp only
  rw [hkey]

/-- With its mapping and key found once, each record is inserted as it is on its own. -/
theorem insertEach_eq_onEach {m : Mapping} {key : List m.Index} (hm : type.mapping = .ok m)
    (hkey : s.key m table = .ok key) (ds : List ρ) (db : σ) :
    s.insertEach m type table key ds db = (s.insert type table).onEach ds db := by
  induction ds generalizing db with
  | nil => rfl
  | cons d ds ih =>
    have hone := exec_insert_of_mapping hm hkey d db
    rcases hrun : (s.insertOne m type table key).exec (d, db) with ⟨r, d₁, db₁⟩
    rw [hrun] at hone
    rw [Action.onEach, hone]
    cases r with
    | error e => exact s.insertEach_cons_of_error m type table key hrun ds
    | ok u => rw [s.insertEach_cons_of_ok m type table key hrun ds, ih db₁]

/-- All records are looked at before any is inserted. -/
theorem exec_insertAll_eq_validated (hmethod : s.dialect.insertMethod = .lastInsertId)
    (ds : List ρ) (db : σ) :
    (s.insertAll type table).exec (ds, db) =
      match ds.forM (s.validate type table) with
      | .error e => (.error e, (ds, db))
      | .ok () => (s.insert type table).onEach ds db := by
  rw [exec_insertAll]
  cases ds with
  | nil => rfl
  | cons d ds =>
    rw [if_neg (List.cons_ne_nil d ds)]
    cases hm : type.mapping with
    | error e =>
      have hrefused : s.validate type table d = .error e := by
        rw [validate, hm]
        rfl
      rw [forM_cons_of_error hrefused]
    | ok m =>
      dsimp only
      cases hkey : s.key m table with
      | error e =>
        have hrefused : s.validate type table d = .error e := by
          rw [validate, hm]
          show (s.key m table >>= fun key => s.checkInsert m type table key d) = _
          rw [hkey]
          rfl
        rw [forM_cons_of_error hrefused]
      | ok key =>
        have hvalidate : s.validate type table = s.checkInsert m type table key :=
          funext (validate_of_mapping hm hkey)
        dsimp only
        rw [if_pos hmethod, hvalidate]
        cases (d :: ds).forM (s.checkInsert m type table key) with
        | error e => rfl
        | ok u => exact insertEach_eq_onEach hm hkey (d :: ds) db

end Session

/-! ## Main result -/

/-- **A batch is inserted record by record, or not at all.**  The first record that is refused makes
the whole insert fail with its error before any call, and no record changes; if none is refused,
then result, records, adapter and calls are those of inserting the records one after the other up
to the first that fails. -/
theorem insertAll_refused_or_onEach [JsonLibrary] (type : RecordType ρ) (table : Table) (s : Session σ η)
    (hdialect : s.dialect = .mysql ∨ s.dialect = .sqlite) (ds : List ρ) (db : σ)
    (calls : List Rehearsal.Call) :
    (∀ before d after e, ds = before ++ d :: after →
      (∀ d' ∈ before, s.validate type table d' = .ok ()) → s.validate type table d = .error e →
        (s.traced.insertAll type table).exec (ds, (db, calls)) = (.error e, (ds, (db, calls)))) ∧
    ((∀ d ∈ ds, s.validate type table d = .ok ()) →
      (s.traced.insertAll type table).exec (ds, (db, calls)) =
        (s.traced.insert type table).onEach ds (db, calls)) := by
  have hmethod : s.traced.dialect.insertMethod = .lastInsertId := by
    rcases hdialect with hmysql | hsqlite
    · rw [Session.dialect_traced, hmysql]
      rfl
    · rw [Session.dialect_traced, hsqlite]
      rfl
  have htraced : s.traced.validate type table = s.validate type table := rfl
  constructor
  · intro before d after e hds hbefore hd
    rw [Session.exec_insertAll_eq_validated hmethod, htraced, hds,
      forM_of_first_error hbefore hd after]
  · intro hall
    rw [Session.exec_insertAll_eq_validated hmethod, htraced, forM_of_ok hall]

/-! ## Two batches of notes -/

/-- A table of notes whose key is their code. -/
def codedNotes : Table := ⟨"notes", ["code"]⟩

/-- The calls for a new note: its insert, and the query for what the database assigned. -/
def codedNoteCalls (id : Int64) (code : String) : List Rehearsal.Call :=
  [.execute "INSERT INTO notes (\"id\", \"code\") VALUES (?, ?)" [.integer id, .text code],
    .query "SELECT \"CODE\", \"stamp\" FROM notes WHERE \"code\" = ?" [.text code]]

theorem insertAll_refused_or_onEach_notes :
    (noteSession.dialect = .mysql ∨ noteSession.dialect = .sqlite) ∧
      (noteSession.traced.insertAll noteType codedNotes).exec
          ([noteOf 1 "a" "" "", noteOf 2 "" "" ""], ((), [])) =
        (.error (.missingPrimaryKey "notes" "code"),
          ([noteOf 1 "a" "" "", noteOf 2 "" "" ""], ((), []))) ∧
      (noteSession.traced.insertAll noteType codedNotes).exec
          ([noteOf 1 "a" "" "", noteOf 2 "b" "" ""], ((), [])) =
        (noteSession.traced.insert noteType codedNotes).onEach
          [noteOf 1 "a" "" "", noteOf 2 "b" "" ""] ((), []) ∧
      (noteSession.traced.insertAll noteType codedNotes).exec
          ([noteOf 1 "a" "" "", noteOf 2 "b" "" ""], ((), [])) =
        (.ok (), ([noteOf 1 "a" "A" "noon", noteOf 2 "b" "A" "noon"],
          ((), codedNoteCalls 1 "a" ++ codedNoteCalls 2 "b"))) := by
  have hdialect : noteSession.dialect = .mysql ∨ noteSession.dialect = .sqlite := .inr rfl
  have heach := (insertAll_refused_or_onEach noteType codedNotes noteSession hdialect
    [noteOf 1 "a" "" "", noteOf 2 "b" "" ""] () []).2 <| by
      rw [List.forall_mem_cons, List.forall_mem_singleton]
      exact ⟨by rfl, by rfl⟩
  refine ⟨hdialect, ?_, heach, heach.trans rfl⟩
  refine (insertAll_refused_or_onEach noteType codedNotes noteSession hdialect _ () []).1
    [noteOf 1 "a" "" ""] (noteOf 2 "" "" "") [] _ rfl (fun d hd => ?_) (by rfl)
  rw [List.mem_singleton.1 hd]
  rfl

end TableRecords
