import TableRecords.Proofs.Embedded.Store
import TableRecords.Proofs.Scan.All
import TableRecords.Session.Read

/-!
# Reading one record or all of them

A read of one record sends the statement of the read of all, and copies the first row alone.  The
adapter refuses both, or lets each of them read the same rows (`Adapter.Reply`):

    all rows give records     : the first of them, or `notFound` if there are none
    some row gives no record  : the record of the first row, or its error if that row is the one

`queryOne_first_of_query` says so of `queryOne` and `query`, and of `queryOneSql` and `querySql`.
-/

namespace TableRecords

open Rehearsal (Call)

variable {σ η ρ : Type}

namespace Adapter.Reply

variable [JsonLibrary]

/-- The first row was read and gave a record. -/
def First (reply : Reply σ) (m : Mapping) (type : RecordType ρ) (d : ρ) : Prop :=
  ∃ c release row rest, reply = .rows c release ∧ c.rows = row :: rest ∧
    Scan.recordOf m type c.columns row = .ok d

theorem first_rows_iff {c : Cursor} {release : Except Error Unit → Cursor → σ} {m : Mapping}
    {type : RecordType ρ} {d : ρ} :
    (rows c release).First m type d ↔
      ∃ row rest, c.rows = row :: rest ∧ Scan.recordOf m type c.columns row = .ok d := by
  constructor
  · rintro ⟨_, _, row, rest, ⟨⟩, hrows, hrow⟩
    exact ⟨row, rest, hrows, hrow⟩
  · rintro ⟨row, rest, hrows, hrow⟩
    exact ⟨c, release, row, rest, rfl, hrows, hrow⟩

end Adapter.Reply

namespace Session

variable [JsonLibrary]

/-! ## Both reads of a statement -/

/-- How the read of one record ends beside the read of all of them, by a statement that was
answered. -/
structure FirstOf (m : Mapping) (type : RecordType ρ) (st : Statement) (reply : Adapter.Reply σ)
    (calls : List Call) (all : Except Error (List ρ) × (σ × List Call))
    (one : Except Error ρ × (σ × List Call)) : Prop where
  sent : all.2.2 = calls ++ [.query st.sql st.args] ∧ one.2.2 = calls ++ [.query st.sql st.args]
  some : ∀ d ds, all.1 = .ok (d :: ds) → one.1 = .ok d
  none : all.1 = .ok [] → one.1 = .error (.notFound (context st))
  /-- The rows behind the first do not matter. -/
  first : ∀ d, reply.First m type d → one.1 = .ok d
  fails : ∀ e, all.1 = .error e → (∀ d, ¬ reply.First m type d) → one.1 = .error e
  /-- One row is asked for. -/
  fetched : ∀ c release, reply = .rows c release → ∃ r, one.2.1 = release r (c.advance 1)

/-- A read of one record goes with a read of all: neither makes a call if the statement cannot be
built, and otherwise they end as `FirstOf` says. -/
structure ReadsFirst (s : Session σ η) (type : RecordType ρ)
    (build : Mapping → Except Error Statement) (all : Action (σ × List Call) (List ρ))
    (one : Action (σ × List Call) ρ) (db : σ) (calls : List Call) : Prop where
  refused : ∀ e, type.mapping >>= build = .error e →
    all.exec (db, calls) = (.error e, (db, calls)) ∧ one.exec (db, calls) = (.error e, (db, calls))
  answered : ∀ m st reply, type.mapping = .ok m → build m = .ok st →
    s.adapter.RepliesWith s.handle st.sql st.args db reply →
      FirstOf m type st reply calls (all.exec (db, calls)) (one.exec (db, calls))

variable {s : Session σ η} {m : Mapping} {type : RecordType ρ} {st : Statement} {db : σ}

theorem exec_scanAll_of_failure {e : Error} {db' : σ}
    (h : s.adapter.RepliesWith s.handle st.sql st.args db (.failure e db')) :
    (s.scanAll m type st).exec db = (.error e, db') := by
  rw [scanAll, Action.exec_of]
  dsimp only
  rw [h]
  rfl

theorem exec_scanAll_of_rows {c c' : Cursor} {release : Except Error Unit → Cursor → σ}
    (h : s.adapter.RepliesWith s.handle st.sql st.args db (.rows c release))
    {r : Except Error Nat} {ds : List ρ} (hall : (Scan.all m type).exec ([], c) = (r, (ds, c'))) :
    (s.scanAll m type st).exec db =
      (r.map fun _ => ds, release (r.map fun _ => ()) c') := by
  rw [scanAll, Action.exec_of]
  dsimp only
  rw [h]
  dsimp only [Adapter.Reply.outcome]
  rw [Action.exec_bind, hall]
  cases r <;> rfl

theorem exec_firstOf_of_failure {e : Error} {db' : σ}
    (h : s.adapter.RepliesWith s.handle st.sql st.args db (.failure e db')) :
    (s.firstOf m type st).exec db = (.error e, db') := by
  rw [firstOf, Action.exec_of, scanFirst, Action.exec_of]
  dsimp only
  rw [h]
  rfl

theorem exec_firstOf_of_rows {c c' : Cursor} {release : Except Error Unit → Cursor → σ}
    (h : s.adapter.RepliesWith s.handle st.sql st.args db (.rows c release))
    {r : Except Error Bool} {d : ρ}
    (hone : (Scan.one m type).exec (type.zero, c) = (r, (d, c'))) :
    (s.firstOf m type st).exec db =
      (r.bind fun found => if found then .ok d else .error (.notFound (context st)),
        release (r.map fun _ => ()) c') := by
  rw [firstOf, Action.exec_of, scanFirst, Action.exec_of]
  dsimp only
  rw [h]
  dsimp only [Adapter.Reply.outcome, visitFirst, Action.exec_of]
  rw [hone]
  cases r with
  | error e => rfl
  | ok found => cases found <;> rfl

theorem exec_firstOf_traced (s : Session σ η) (m : Mapping) (type : RecordType ρ) (st : Statement)
    (db : σ) (calls : List Call) :
    (s.traced.firstOf m type st).exec (db, calls) =
      (((s.firstOf m type st).exec db).1,
        (((s.firstOf m type st).exec db).2, calls ++ [.query st.sql st.args])) := by
  rw [firstOf, firstOf, Action.exec_of, Action.exec_of, exec_scanFirst_traced]
  rcases (s.scanFirst m type st).exec (type.zero, db) with ⟨e | found, d, db'⟩
  · rfl
  · cases found <;> rfl

section

variable {c : Cursor} {release : Except Error Unit → Cursor → σ}
  (h : s.adapter.RepliesWith s.handle st.sql st.args db (.rows c release)) (calls : List Call)

include h

theorem firstOf_of_nil (hrows : c.rows = []) :
    FirstOf m type st (.rows c release) calls ((s.traced.scanAll m type st).exec (db, calls))
      ((s.traced.firstOf m type st).exec (db, calls)) := by
  rw [exec_scanAll_traced, exec_scanAll_of_rows h (Scan.exec_all_of_nil hrows []),
    exec_firstOf_traced, exec_firstOf_of_rows h (Scan.exec_one_of_nil hrows type.zero)]
  refine ⟨⟨rfl, rfl⟩, ?_, fun _ => rfl, fun d hfirst => ?_, ?_, ?_⟩
  · intro d ds hok
    cases hok
  · obtain ⟨row, rest, hcons, -⟩ := Adapter.Reply.first_rows_iff.1 hfirst
    exact absurd (hrows.symm.trans hcons) (by simp)
  · intro e he
    cases he
  · rintro _ _ ⟨⟩
    exact ⟨_, rfl⟩

theorem firstOf_of_error {row : Except Error (List Value)}
    {rest : List (Except Error (List Value))} {e : Error} (hrows : c.rows = row :: rest)
    (hrow : Scan.recordOf m type c.columns row = .error e) :
    FirstOf m type st (.rows c release) calls ((s.traced.scanAll m type st).exec (db, calls))
      ((s.traced.firstOf m type st).exec (db, calls)) := by
  obtain ⟨d, hone⟩ := Scan.exec_one_of_error hrows hrow
  rw [exec_scanAll_traced, exec_scanAll_of_rows h (Scan.exec_all_of_error hrows hrow []),
    exec_firstOf_traced, exec_firstOf_of_rows h hone]
  refine ⟨⟨rfl, rfl⟩, ?_, ?_, fun d hfirst => ?_, fun f hf _ => ?_, ?_⟩
  · intro d ds hok
    cases hok
  · intro hok
    cases hok
  · obtain ⟨row', rest', hcons, hrecord⟩ := Adapter.Reply.first_rows_iff.1 hfirst
    obtain ⟨rfl, -⟩ := List.cons.inj (hrows.symm.trans hcons)
    exact absurd (hrow.symm.trans hrecord) (by simp)
  · cases hf
    rfl
  · rintro _ _ ⟨⟩
    exact ⟨_, rfl⟩

theorem firstOf_of_record {row : Except Error (List Value)}
    {rest : List (Except Error (List Value))} {d : ρ} (hrows : c.rows = row :: rest)
    (hrow : Scan.recordOf m type c.columns row = .ok d) :
    FirstOf m type st (.rows c release) calls ((s.traced.scanAll m type st).exec (db, calls))
      ((s.traced.firstOf m type st).exec (db, calls)) := by
  obtain ⟨r, ds, c', hall⟩ := Scan.exec_all_of_record hrows hrow []
  rw [exec_scanAll_traced, exec_scanAll_of_rows h hall, exec_firstOf_traced,
    exec_firstOf_of_rows h (Scan.exec_one_of_record hrows hrow)]
  refine ⟨⟨rfl, rfl⟩, fun d' ds' hok => ?_, fun hok => ?_, fun d' hfirst => ?_, fun e _ hnot => ?_, ?_⟩
  · cases r with
    | error e => cases hok
    | ok n =>
      cases hok
      rfl
  · cases r <;> cases hok
  · obtain ⟨row', rest', hcons, hrecord⟩ := Adapter.Reply.first_rows_iff.1 hfirst
    obtain ⟨rfl, -⟩ := List.cons.inj (hrows.symm.trans hcons)
    obtain rfl := Except.ok.inj (hrow.symm.trans hrecord)
    rfl
  · exact absurd (Adapter.Reply.first_rows_iff.2 ⟨row, rest, hrows, hrow⟩) (hnot d)
  · rintro _ _ ⟨⟩
    exact ⟨_, rfl⟩

end

theorem firstOf_of_failure {e : Error} {db' : σ}
    (h : s.adapter.RepliesWith s.handle st.sql st.args db (.failure e db')) (calls : List Call) :
    FirstOf m type st (.failure e db') calls ((s.traced.scanAll m type st).exec (db, calls))
      ((s.traced.firstOf m type st).exec (db, calls)) := by
  rw [exec_scanAll_traced, exec_scanAll_of_failure h, exec_firstOf_traced,
    exec_firstOf_of_failure h]
  refine ⟨⟨rfl, rfl⟩, ?_, ?_, ?_, fun f hf _ => ?_, ?_⟩
  · intro d ds hok
    cases hok
  · intro hok
    cases hok
  · rintro d ⟨_, _, _, _, ⟨⟩, -⟩
  · cases hf
    rfl
  · rintro _ _ ⟨⟩

theorem firstOf_of_reply {reply : Adapter.Reply σ}
    (h : s.adapter.RepliesWith s.handle st.sql st.args db reply) (calls : List Call) :
    FirstOf m type st reply calls ((s.traced.scanAll m type st).exec (db, calls))
      ((s.traced.firstOf m type st).exec (db, calls)) := by
  cases reply with
  | failure e db' => exact firstOf_of_failure h calls
  | rows c release =>
    cases hrows : c.rows with
    | nil => exact firstOf_of_nil h calls hrows
    | cons row rest =>
      cases hrow : Scan.recordOf m type c.columns row with
      | error e => exact firstOf_of_error h calls hrows hrow
      | ok d => exact firstOf_of_record h calls hrows hrow

/-- Whatever builds the statement, both reads send it. -/
theorem readsFirst_of_build (s : Session σ η) (type : RecordType ρ)
    (build : Mapping → Except Error Statement) (db : σ) (calls : List Call) :
    s.ReadsFirst type build (do let m ← type.mapping; s.traced.scanAll m type (← build m))
      (do let m ← type.mapping; s.traced.firstOf m type (← build m)) db calls where
  refused e h := by
    rcases bind_eq_error_iff.1 h with hm | ⟨m, hm, hbuild⟩
    · rw [hm]
      exact ⟨rfl, rfl⟩
    · rw [hm]
      have hbound : ∀ {α : Type} (f : Mapping → Statement → Action (σ × List Call) α),
          (do let m ← (Except.ok m : Except Error Mapping); f m (← build m) :
            Action (σ × List Call) α).exec (db, calls) = (.error e, (db, calls)) := by
        intro α f
        rw [Action.exec_bind_ok (Action.exec_liftM _ _)]
        exact Action.exec_bind_error ((Action.exec_liftM _ _).trans (by rw [hbuild]))
      exact ⟨hbound _, hbound _⟩
  answered m st reply hm hbuild h := by
    have hbound : ∀ {α : Type} (f : Mapping → Statement → Action (σ × List Call) α),
        (do let m ← type.mapping; f m (← build m) : Action (σ × List Call) α).exec (db, calls) =
          (f m st).exec (db, calls) := by
      intro α f
      rw [hm, Action.exec_bind_ok (Action.exec_liftM _ _)]
      exact Action.exec_bind_ok ((Action.exec_liftM _ _).trans (by rw [hbuild]))
    rw [hbound, hbound]
    exact firstOf_of_reply h calls

end Session

/-! ## Main result -/

/-- **A read of one record gives the first of what the read of all gives.**  Both are refused alike
without a call, or send the same statement and nothing else.  With all records there it is the first
of them, or `notFound` if there are none; with some row that gives no record it is still that of the
first row, if this one gives it, and else the same error.  No row behind the first is asked for. -/
theorem queryOne_first_of_query [JsonLibrary] (s : Session σ η) (type : RecordType ρ) (table : Table)
    (filter sql : String) (args : List Value) (db : σ) (calls : List Call) :
    s.ReadsFirst type (fun m => Statement.select m s.dialect table filter args)
      (s.traced.query type table filter args) (s.traced.queryOne type table filter args) db calls ∧
    s.ReadsFirst type (fun m => Statement.selectSql m s.dialect sql args)
      (s.traced.querySql type sql args) (s.traced.queryOneSql type sql args) db calls :=
  ⟨Session.readsFirst_of_build s type _ db calls, Session.readsFirst_of_build s type _ db calls⟩

/-! ## Notes in front of a row that cannot be read -/

/-- The read of all notes. -/
def noteSelect : Statement where
  kind := .select
  table := "notes"
  columns := ["id", "code", "CODE", "stamp"]
  filter := none
  sql := "SELECT \x22id\x22, \x22code\x22, \x22CODE\x22, \x22stamp\x22 FROM notes"
  args := []

theorem select_notes :
    Statement.select noteMapping .postgres ⟨"notes", []⟩ "" [] = .ok noteSelect := by
  have hwritten : Sql.withPlaceholders (Text.trim "") .postgres 0 0 = .ok "" := by
    simp [Sql.withPlaceholders, Text.trim, Text.trimChars, Text.trimFront, Text.trimBack, Sql.cut,
      Sql.markCount, Sql.renderPieces]
  rw [Statement.select, List.length_nil, hwritten]
  rfl

theorem exec_query_notes :
    (noteRowsSession.traced.query noteType ⟨"notes", []⟩ "" []).exec (0, []) =
      (.error (.adapter (.closed "" 0)), (3, [.query noteSelect.sql []])) := by
  have hselect : Statement.select noteMapping noteRowsSession.traced.dialect ⟨"notes", []⟩ "" [] =
      .ok noteSelect := select_notes
  rw [Session.query, mapping_noteType, Action.exec_bind_ok (Action.exec_liftM _ _), hselect,
    Action.exec_bind_ok (Action.exec_liftM _ _)]
  rfl

/-- All notes cannot be read, but the first can, and for it one row is asked for.  Every adapter on a
driver answers queries so, too. -/
theorem queryOne_first_of_query_notes :
    (∀ (D : Embedded.Driver) (handle : Embedded.Handle D) (sql : String) (args : List Value)
      (db : Embedded.Store D), ∃ reply,
        Embedded.Store.adapter.RepliesWith handle sql args db reply) ∧
    (noteRowsAdapter.RepliesWith () noteSelect.sql [] 0
        (.rows noteRows fun _ c => c.fetched) ∧
      (noteRowsSession.traced.query noteType ⟨"notes", []⟩ "" []).exec (0, []) =
        (.error (.adapter (.closed "" 0)), (3, [.query noteSelect.sql []]))) ∧
    (noteRowsSession.traced.queryOne noteType ⟨"notes", []⟩ "" []).exec (0, []) =
      (.ok (noteOf 7 "" "A" "noon"), (1, [.query noteSelect.sql []])) := by
  have hreply : noteRowsAdapter.RepliesWith () noteSelect.sql [] 0
      (.rows noteRows fun _ c => c.fetched) := fun _ _ _ => rfl
  have hreads := (queryOne_first_of_query noteRowsSession noteType ⟨"notes", []⟩ "" "" [] 0 []).1
  have hone := hreads.answered noteMapping noteSelect _ mapping_noteType select_notes hreply
  have hread := hone.first (noteOf 7 "" "A" "noon") ⟨noteRows, _, _, _, rfl, rfl, rfl⟩
  obtain ⟨r, hfetched⟩ := hone.fetched _ _ rfl
  refine ⟨fun D handle sql args db => Embedded.Store.exists_reply handle sql args db, ?_⟩
  exact ⟨⟨hreply, exec_query_notes⟩, Prod.ext hread (Prod.ext hfetched hone.sent.2)⟩

end TableRecords
