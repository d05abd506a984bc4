import TableRecords.Json.Standard
import TableRecords.Proofs.Record.Fields
import TableRecords.Proofs.Session.Serving

/-!
# Inserting records by one statement

Where an insert returns what the database assigned, several records are inserted by one statement,
and the rows that answer it are copied to the records in order.  The records in front are filled
from their rows (`Scan.RowByRow`), and `Filling.fill` then stands at the next record and row:

    fill (before ++ after) c = fill after (c.advance before.length)          (fill_append)

It goes no further where the records end, where the rows end, at a row that cannot be read, and at a
row that does not fit (`exists_stop`).  `insertAll_rows` tells how the insert ends at each of these.
-/

namespace TableRecords

variable {σ η ρ : Type}

/-! ## Cursors -/

/-- The cursor once some more rows were asked for. -/
def Cursor.advance (c : Cursor) (n : Nat) : Cursor :=
  { columns := c.columns, rows := c.rows.drop n, fetched := c.fetched + n }

namespace Cursor

@[simp] theorem columns_advance (c : Cursor) (n : Nat) : (c.advance n).columns = c.columns := rfl

@[simp] theorem rows_advance (c : Cursor) (n : Nat) : (c.advance n).rows = c.rows.drop n := rfl

theorem advance_zero (c : Cursor) : c.advance 0 = c := rfl

theorem advance_advance (c : Cursor) (n k : Nat) : (c.advance n).advance k = c.advance (n + k) := by
  unfold advance
  rw [List.drop_drop, Nat.add_assoc]

theorem exec_next_of_nil {c : Cursor} (h : c.rows = []) :
    next.exec c = (.ok none, c.advance 1) := by
  rw [next, Action.exec_of, advance, h]
  rfl

theorem exec_next_of_cons {c : Cursor} {row : Except Error (List Value)}
    {rest : List (Except Error (List Value))} (h : c.rows = row :: rest) :
    next.exec c = (row.map some, c.advance 1) := by
  rw [next, Action.exec_of, advance, h]
  rfl

end Cursor

/-- An adapter lets the visitor of a query read one cursor, and goes on with what is left of it. -/
def Adapter.AnswersWith (a : Adapter σ η) (handle : η) (sql : String) (args : List Value) (db : σ)
    (c : Cursor) (release : Cursor → σ) : Prop :=
  ∀ (β : Type) (visit : Action (β × Cursor) Unit) b,
    (a.query handle sql args visit).exec (b, db) =
      ((visit.exec (b, c)).1, ((visit.exec (b, c)).2.1, release (visit.exec (b, c)).2.2))

theorem Adapter.AnswersWith.traced {a : Adapter σ η} {handle : η} {sql : String}
    {args : List Value} {db : σ} {c : Cursor} {release : Cursor → σ}
    (h : a.AnswersWith handle sql args db c release) (calls : List Rehearsal.Call) :
    a.traced.AnswersWith handle sql args (db, calls) c
      fun c' => (release c', calls ++ [.query sql args]) := by
  intro β visit b
  show (((a.query handle sql args visit).exec (b, db)).1,
    (((a.query handle sql args visit).exec (b, db)).2.1,
      (((a.query handle sql args visit).exec (b, db)).2.2, calls ++ [.query sql args]))) = _
  rw [h β visit b]

/-! ## Records and their rows -/

/-- Each record becomes another one by copying its row: the first record the first row, and so
on. -/
inductive Scan.RowByRow [JsonLibrary] (m : Mapping) (type : RecordType ρ) (names : List String) :
    List ρ → List (List Value) → List ρ → Prop where
  | nil : RowByRow m type names [] [] []
  | cons {d d' : ρ} {values : List Value} {ds ds' : List ρ} {rows : List (List Value)}
    (hrow : (Scan.row m type names values).exec d = (.ok (), d'))
    (hrest : RowByRow m type names ds rows ds') :
    RowByRow m type names (d :: ds) (values :: rows) (d' :: ds')

namespace Scan.RowByRow

variable [JsonLibrary] {m : Mapping} {type : RecordType ρ} {names : List String} {ds ds' : List ρ}
  {rows : List (List Value)}

theorem length_rows (h : RowByRow m type names ds rows ds') : rows.length = ds.length := by
  induction h with
  | nil => rfl
  | cons hrow hrest ih => rw [List.length_cons, List.length_cons, ih]

theorem length_filled (h : RowByRow m type names ds rows ds') : ds'.length = ds.length := by
  induction h with
  | nil => rfl
  | cons hrow hrest ih => rw [List.length_cons, List.length_cons, ih]

end Scan.RowByRow

namespace Session.Filling

variable {m : Mapping} {type : RecordType ρ} {names : List String}

variable [JsonLibrary]

/-- Where the copying of rows stops: records in front are filled, and then there are no more
records, or no more rows, or a row that cannot be read, or a row that does not fit. -/
theorem exists_stop (m : Mapping) (type : RecordType ρ) (names : List String) (ds : List ρ)
    (rows : List (Except Error (List Value))) :
    ∃ before after values before' rest, ds = before ++ after ∧ rows = values.map .ok ++ rest ∧
      Scan.RowByRow m type names before values before' ∧
      (after = [] ∨ after ≠ [] ∧ rest = [] ∨
        (after ≠ [] ∧ ∃ e rest', rest = .error e :: rest') ∨
        ∃ d after' v rest' e d', after = d :: after' ∧ rest = .ok v :: rest' ∧
          (Scan.row m type names v).exec d = (.error e, d')) := by
  induction ds generalizing rows with
  | nil => exact ⟨[], [], [], [], rows, rfl, rfl, .nil, .inl rfl⟩
  | cons d ds ih =>
    have hne : d :: ds ≠ [] := List.cons_ne_nil d ds
    cases rows with
    | nil => exact ⟨[], d :: ds, [], [], [], rfl, rfl, .nil, .inr (.inl ⟨hne, rfl⟩)⟩
    | cons row rows =>
      cases row with
      | error e =>
        exact ⟨[], d :: ds, [], [], .error e :: rows, rfl, rfl, .nil,
          .inr (.inr (.inl ⟨hne, e, rows, rfl⟩))⟩
      | ok v =>
        rcases hrow : (Scan.row m type names v).exec d with ⟨r, d'⟩
        cases r with
        | error e =>
          exact ⟨[], d :: ds, [], [], .ok v :: rows, rfl, rfl, .nil,
            .inr (.inr (.inr ⟨d, ds, v, rows, e, d', rfl, rfl, hrow⟩))⟩
        | ok u =>
          obtain ⟨before, after, values, before', rest, hds, hrows, hfilled, hstop⟩ := ih rows
          refine ⟨d :: before, after, v :: values, d' :: before', rest, ?_, ?_, .cons hrow hfilled,
            hstop⟩
          · rw [hds, List.cons_append]
          · rw [hrows, List.map_cons, List.cons_append]

/-- **The records in front are filled**, each from its row. -/
theorem fill_append {before before' : List ρ} {values : List (List Value)}
    (h : Scan.RowByRow m type names before values before') {c : Cursor} (hnames : c.columns = names)
    {rest : List (Except Error (List Value))} (hrows : c.rows = values.map .ok ++ rest)
    (filled after : List ρ) :
    fill m type filled (before ++ after) c =
      fill m type (filled ++ before') after (c.advance before.length) := by
  induction h generalizing filled c with
  | nil => rw [List.nil_append, List.append_nil, List.length_nil, Cursor.advance_zero]
  | @cons d d' v before before' values hrow hfilled ih =>
    rw [List.map_cons, List.cons_append] at hrows
    have hrest : (c.advance 1).rows = values.map .ok ++ rest := by
      rw [Cursor.rows_advance, hrows, List.drop_one, List.tail_cons]
    have hcolumns : (c.advance 1).columns = names := hnames
    have hnext := Cursor.exec_next_of_cons hrows
    have hlength : c.advance (d :: before).length = (c.advance 1).advance before.length := by
      rw [Cursor.advance_advance, List.length_cons, Nat.add_comm]
    rw [List.cons_append, fill, hnext]
    dsimp only [Except.map]
    rw [hcolumns, hrow]
    dsimp only
    rw [ih hcolumns hrest, List.append_assoc, List.singleton_append, hlength]

/-- What was asked for in front of the row where the copying stops. -/
theorem rows_advance_length {before before' : List ρ} {values : List (List Value)} {c : Cursor}
    (h : Scan.RowByRow m type names before values before')
    {rest : List (Except Error (List Value))} (hrows : c.rows = values.map .ok ++ rest) :
    (c.advance before.length).rows = rest := by
  have hlength : (values.map (Except.ok (ε := Error))).length = before.length := by
    rw [List.length_map, h.length_rows]
  rw [Cursor.rows_advance, hrows, ← hlength, List.drop_left]

variable {c : Cursor} {before before' : List ρ} {values : List (List Value)}
  {rest : List (Except Error (List Value))}

/-- All records have their rows. -/
theorem fill_of_all (h : Scan.RowByRow m type c.columns before values before')
    (hrows : c.rows = values.map .ok ++ rest) :
    fill m type [] before c = (.ok (), (⟨before', []⟩, c.advance before.length)) := by
  have hfill := fill_append h rfl hrows [] []
  rw [List.append_nil, List.nil_append] at hfill
  exact hfill

/-- There are fewer rows than records. -/
theorem fill_of_short (h : Scan.RowByRow m type c.columns before values before')
    (hrows : c.rows = values.map .ok ++ []) (d : ρ) (after : List ρ) :
    fill m type [] (before ++ d :: after) c =
      (.ok (), (⟨before', d :: after⟩, c.advance (before.length + 1))) := by
  rw [fill_append h rfl hrows, fill, Cursor.exec_next_of_nil (rows_advance_length h hrows),
    Cursor.advance_advance]
  rfl

/-- A row cannot be read. -/
theorem fill_of_unread (h : Scan.RowByRow m type c.columns before values before') {e : Error}
    (hrows : c.rows = values.map .ok ++ .error e :: rest) (d : ρ) (after : List ρ) :
    fill m type [] (before ++ d :: after) c =
      (.error e, (⟨before', d :: after⟩, c.advance (before.length + 1))) := by
  rw [fill_append h rfl hrows, fill, Cursor.exec_next_of_cons (rows_advance_length h hrows),
    Cursor.advance_advance]
  rfl

/-- A row does not fit its record. -/
theorem fill_of_unfit (h : Scan.RowByRow m type c.columns before values before') {v : List Value}
    (hrows : c.rows = values.map .ok ++ .ok v :: rest) {d d' : ρ} {e : Error}
    (hrow : (Scan.row m type c.columns v).exec d = (.error e, d')) (after : List ρ) :
    fill m type [] (before ++ d :: after) c =
      (.error e, (⟨before', d' :: after⟩, c.advance (before.length + 1))) := by
  rw [fill_append h rfl hrows, fill, Cursor.exec_next_of_cons (rows_advance_length h hrows),
    Cursor.advance_advance]
  dsimp only [Except.map]
  rw [Cursor.columns_advance, hrow]
  rfl

end Session.Filling

namespace Session

variable {s : Session σ η} {m : Mapping} {type : RecordType ρ} {table : Table} {key : List m.Index}

variable [JsonLibrary]

theorem exec_insertAllReturning {st : Statement} {ds : List ρ} {db : σ} {c c' : Cursor}
    {release : Cursor → σ} (ha : s.adapter.AnswersWith s.handle st.sql st.args db c release)
    {r : Except Error Unit} {f : Filling ρ}
    (hfill : Filling.fill m type [] ds c = (r, (f, c'))) :
    (s.insertAllReturning m type st).exec (ds, db) =
      ((do
        r
        if f.waiting.isEmpty then .ok ()
        else .error (driverFault st
          s!"insert returned {f.filled.length} rows for {ds.length} records")),
        (f.filled ++ f.waiting, release c')) := by
  have hvisit : (Filling.visit m type).exec (⟨[], ds⟩, c) = (r, (f, c')) := hfill
  rw [insertAllReturning, Action.exec_of]
  dsimp only
  rw [ha, hvisit]

/-- Several records are inserted by one statement, and filled from the rows that answer it. -/
theorem exec_insertAll_of_fill (hmethod : s.dialect.insertMethod ≠ .lastInsertId)
    (hm : type.mapping = .ok m) (hkey : s.key m table = .ok key) {ds : List ρ}
    {st : InsertStatement m}
    (hst : InsertStatement.ofRecords m type s.dialect table key ds = .ok st)
    (hread : st.readBack ≠ []) {db : σ} {c c' : Cursor} {release : Cursor → σ}
    (ha : s.adapter.AnswersWith s.handle st.sql st.args db c release) {r : Except Error Unit}
    {f : Filling ρ} (hfill : Filling.fill m type [] ds c = (r, (f, c'))) :
    (s.insertAll type table).exec (ds, db) =
      ((do
        r
        if f.waiting.isEmpty then .ok ()
        else .error (driverFault st.toStatement
          s!"insert returned {f.filled.length} rows for {ds.length} records")),
        (f.filled ++ f.waiting, release c')) := by
  have hds : ds ≠ [] := by
    rintro rfl
    exact absurd hst (by simp [InsertStatement.ofRecords, bind, Except.bind, pure, Except.pure])
  rw [exec_insertAll, if_neg hds, hm]
  dsimp only
  rw [hkey]
  dsimp only
  rw [if_neg hmethod, hst]
  dsimp only
  rw [exec_sendMany, if_neg hread]
  exact exec_insertAllReturning ha hfill

end Session

/-! ## Main result -/

/-- **How an insert of several records by one statement ends.**  It makes one call.  It succeeds
exactly if every record has a row that is read and fits, and then asks for no further row.
Otherwise the records in front of the first that has no such row are filled; the record that a row
does not fit is left as far as it was copied, and all behind it keep what they held. -/
theorem insertAll_rows [JsonLibrary] (type : RecordType ρ) (table : Table) (s : Session σ η)
    (hdialect : s.dialect = .postgres ∨ s.dialect = .sqlServer) {m : Mapping}
    {key : List m.Index} (hm : type.mapping = .ok m) (hkey : s.key m table = .ok key)
    (ds : List ρ) {st : InsertStatement m}
    (hst : InsertStatement.ofRecords m type s.dialect table key ds = .ok st)
    (hread : st.readBack ≠ []) (db : σ) {c : Cursor} {release : Cursor → σ}
    (ha : s.adapter.AnswersWith s.handle st.sql st.args db c release)
    (calls : List Rehearsal.Call) {run : Except Error Unit × (List ρ × (σ × List Rehearsal.Call))}
    (hrun : (s.traced.insertAll type table).exec (ds, (db, calls)) = run) :
    (∃ r ds' db', run = (r, (ds', (db', calls ++ [.query st.sql st.args])))) ∧
    (run.1 = .ok () ↔ ∃ values ds', c.rows.take ds.length = values.map .ok ∧
      Scan.RowByRow m type c.columns ds values ds') ∧
    (∀ values ds', c.rows.take ds.length = values.map .ok →
      Scan.RowByRow m type c.columns ds values ds' →
        run = (.ok (),
          (ds', (release (c.advance ds.length), calls ++ [.query st.sql st.args])))) ∧
    ∀ before after values before' rest, ds = before ++ after → after ≠ [] →
      c.rows = values.map .ok ++ rest → Scan.RowByRow m type c.columns before values before' →
      let behind := (release (c.advance (before.length + 1)), calls ++ [.query st.sql st.args])
      (rest = [] →
        run = (.error (Session.driverFault st.toStatement
          s!"insert returned {before.length} rows for {ds.length} records"),
            (before' ++ after, behind))) ∧
      (∀ e rest', rest = .error e :: rest' →
        run = (.error e, (before' ++ after, behind)) ∧
          (c.FailsAsAdapter → ∃ f, e = .adapter f)) ∧
      ∀ d after' v rest' e d', after = d :: after' → rest = .ok v :: rest' →
        (Scan.row m type c.columns v).exec d = (.error e, d') →
          run = (.error e, (before' ++ d' :: after', behind)) := by
  have hmethod : s.traced.dialect.insertMethod ≠ .lastInsertId := by
    rw [Session.dialect_traced]
    rcases hdialect with hpostgres | hsqlServer
    · simp [hpostgres, Dialect.insertMethod]
    · simp [hsqlServer, Dialect.insertMethod]
  have htraced : s.traced.adapter.AnswersWith s.traced.handle st.sql st.args (db, calls) c
      fun c' => (release c', calls ++ [.query st.sql st.args]) := ha.traced calls
  have hends : ∀ {r f c'}, Session.Filling.fill m type [] ds c = (r, (f, c')) → run = _ :=
    fun hfill => hrun.symm.trans
      (Session.exec_insertAll_of_fill hmethod hm hkey hst hread htraced hfill)
  have hall : ∀ values ds', c.rows.take ds.length = values.map .ok →
      Scan.RowByRow m type c.columns ds values ds' →
        run = (.ok (),
          (ds', (release (c.advance ds.length), calls ++ [.query st.sql st.args]))) := by
    intro values ds' htake hfilled
    have hrows : c.rows = values.map .ok ++ c.rows.drop ds.length := by
      rw [← htake, List.take_append_drop]
    rw [hends (Session.Filling.fill_of_all hfilled hrows), List.append_nil]
    rfl
  refine ⟨?_, ⟨fun hok => ?_, fun ⟨values, ds', htake, hfilled⟩ => ?_⟩, hall, ?_⟩
  · exact ⟨_, _, _, hends rfl⟩
  · obtain ⟨before, after, values, before', rest, rfl, hrows, hfilled, hstop⟩ :=
      Session.Filling.exists_stop m type c.columns ds c.rows
    have hne {e : Error} (h : run.1 = .error e) : False := by
      rw [hok] at h
      exact absurd h (by simp)
    rcases hstop with rfl | ⟨hafter, rfl⟩ | ⟨hafter, e, rest, rfl⟩ |
      ⟨d, after, v, rest, e, d', rfl, rfl, hrow⟩
    · rw [List.append_nil]
      refine ⟨values, before', ?_, hfilled⟩
      rw [hrows, ← hfilled.length_rows, ← List.length_map (f := Except.ok), List.take_left]
    · obtain ⟨d, after, rfl⟩ := List.exists_cons_of_ne_nil hafter
      have hrun := hends (Session.Filling.fill_of_short hfilled hrows d after)
      exact (hne (congrArg Prod.fst hrun)).elim
    · obtain ⟨d, after, rfl⟩ := List.exists_cons_of_ne_nil hafter
      have hrun := hends (Session.Filling.fill_of_unread hfilled hrows d after)
      exact (hne (congrArg Prod.fst hrun)).elim
    · have hrun := hends (Session.Filling.fill_of_unfit hfilled hrows hrow after)
      exact (hne (congrArg Prod.fst hrun)).elim
  · rw [hall values ds' htake hfilled]
  · rintro before after values before' rest rfl hafter hrows hfilled
    obtain ⟨d, after, rfl⟩ := List.exists_cons_of_ne_nil hafter
    refine ⟨?_, ?_, ?_⟩
    · rintro rfl
      rw [hends (Session.Filling.fill_of_short hfilled hrows d after), ← hfilled.length_filled]
      rfl
    · rintro e rest rfl
      refine ⟨?_, fun hfails => hfails e ?_⟩
      · rw [hends (Session.Filling.fill_of_unread hfilled hrows d after)]
        rfl
      · rw [hrows]
        exact List.mem_append_right _ List.mem_cons_self
    · rintro _ _ v rest e d' ⟨⟩ rfl hrow
      rw [hends (Session.Filling.fill_of_unfit hfilled hrows hrow after)]
      rfl

/-! ## Two notes and a row that cannot be read -/

/-- Rows for two notes, and a row behind them that cannot be read. -/
def noteRows : Cursor where
  columns := ["id", "CODE", "stamp"]
  rows := [.ok [.integer 7, .text "A", .text "noon"], .ok [.integer 8, .text "B", .text "noon"],
    .error (.adapter (.closed "" 0))]

/-- A driver that answers with these rows and counts those that it was asked for. -/
def noteRowsAdapter : Adapter Nat Unit where
  dialectName := "postgres"
  execute _ _ _ := pure ⟨1, none⟩
  query _ _ _ visit := .of fun (b, _) =>
    let (r, (b, c)) := visit.exec (b, noteRows)
    (r, (b, c.fetched))
  transaction handle body := body handle
  close _ := pure ()

/-- A session of this driver. -/
def noteRowsSession : Session Nat Unit := ⟨noteRowsAdapter, (), .postgres, "id"⟩

/-- The insert of two notes that have a code only. -/
def noteInserts : InsertStatement noteMapping where
  kind := .insert
  table := "notes"
  columns := ["code"]
  filter := none
  sql := "INSERT INTO notes (\x22code\x22) VALUES ($1), ($2)"
    ++ " RETURNING \x22id\x22, \x22CODE\x22, \x22stamp\x22"
  args := [.text "a", .text "b"]
  readBack := noteReadBack
  method := .returning

theorem ofRecords_drafts :
    InsertStatement.ofRecords noteMapping noteType .postgres ⟨"notes", []⟩ [noteKey]
      [noteOf 0 "a" "" "", noteOf 0 "b" "" ""] = .ok noteInserts := by
  rfl

theorem insertAll_rows_notes :
    ((noteRowsSession.dialect = .postgres ∨ noteRowsSession.dialect = .sqlServer) ∧
      noteRowsSession.key noteMapping ⟨"notes", []⟩ = .ok [noteKey] ∧
      noteInserts.readBack ≠ [] ∧
      noteRowsAdapter.AnswersWith () noteInserts.sql noteInserts.args 0 noteRows (·.fetched)) ∧
    (noteRowsSession.traced.insertAll noteType ⟨"notes", []⟩).exec
        ([noteOf 0 "a" "" "", noteOf 0 "b" "" ""], (0, [])) =
      (.ok (), ([noteOf 7 "a" "A" "noon", noteOf 8 "b" "B" "noon"],
        (2, [.query noteInserts.sql noteInserts.args]))) := by
  have hdialect : noteRowsSession.dialect = .postgres ∨ noteRowsSession.dialect = .sqlServer :=
    .inl rfl
  have hkey : noteRowsSession.key noteMapping ⟨"notes", []⟩ = .ok [noteKey] := by rfl
  have hread : noteInserts.readBack ≠ [] := List.cons_ne_nil _ _
  have ha : noteRowsAdapter.AnswersWith () noteInserts.sql noteInserts.args 0 noteRows
      (·.fetched) := fun _ _ _ => rfl
  have hfilled : Scan.RowByRow noteMapping noteType noteRows.columns
      [noteOf 0 "a" "" "", noteOf 0 "b" "" ""]
      [[.integer 7, .text "A", .text "noon"], [.integer 8, .text "B", .text "noon"]]
      [noteOf 7 "a" "A" "noon", noteOf 8 "b" "B" "noon"] := .cons rfl (.cons rfl .nil)
  refine ⟨⟨hdialect, hkey, hread, ha⟩, ?_⟩
  exact (insertAll_rows noteType ⟨"notes", []⟩ noteRowsSession hdialect mapping_noteType hkey _
    ofRecords_drafts hread 0 ha [] rfl).2.2.1 _ _ rfl hfilled

end TableRecords
