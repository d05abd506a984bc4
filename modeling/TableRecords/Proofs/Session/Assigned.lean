import TableRecords.Json.Standard
import TableRecords.Proofs.Scan.Row
import TableRecords.Proofs.Session.Unread

/-!
# What an insert fills in

A successful insert leaves its record as it was but for the columns that the database assigned.
Each of these holds what was supplied for it: the id that the driver reported, or the value of its
own column in the row that the insert, or the read behind it, was answered with.

    insert_fills : insert = .ok → all of `readBack` is supplied, and nothing else changes

A query may let its visitor see any number of cursors, and may hide that a visit failed (`Visited`).
What every visit keeps, a query keeps (`Visited.invariant`).
-/

namespace TableRecords

variable {σ η ρ β : Type}

/-! ## Queries -/

/-- What becomes of the state of a visitor that is shown some cursors. -/
inductive Visited (visit : Action (β × Cursor) Unit) (shown : Cursor → Prop) (b : β) :
    β → Prop where
  | unseen : Visited visit shown b b
  | seen {b₁ : β} {c : Cursor} (h : Visited visit shown b b₁) (hc : shown c) :
    Visited visit shown b (visit.exec (b₁, c)).2.1

theorem Visited.invariant {visit : Action (β × Cursor) Unit} {shown : Cursor → Prop} {b b' : β}
    {P : β → Prop} (h : Visited visit shown b b') (hb : P b)
    (hvisit : ∀ b c, shown c → P b → P (visit.exec (b, c)).2.1) : P b' := by
  induction h with
  | unseen => exact hb
  | seen h hc ih => exact hvisit _ _ hc ih

/-- A successful query shows nothing but cursors that answer it. -/
def Adapter.Shows (a : Adapter σ η) (answers : η → String → List Value → σ → Cursor → Prop) :
    Prop :=
  ∀ {β : Type} handle sql args (visit : Action (β × Cursor) Unit) b db b' db',
    (a.query handle sql args visit).exec (b, db) = (.ok (), (b', db')) →
      Visited visit (answers handle sql args db) b b'

/-- The first row of a cursor has a value in a column. -/
def Cursor.Gives (c : Cursor) (column : String) (v : Value) : Prop :=
  ∃ values, c.rows.head? = some (.ok values) ∧ (column, v) ∈ c.columns.zip values

/-! ## The first row of a query -/

section Rows

variable {m : Mapping} {type : RecordType ρ} {F : type.Fields} {is : List m.Index}

/-- Columns in any order are those of the fields in some order. -/
theorem exists_columnsAt_of_perm (hm : type.mapping = .ok m) {names : List String}
    (h : names.Perm (m.columnsAt is)) : ∃ js, js.Perm is ∧ names = m.columnsAt js := by
  obtain ⟨js, rfl⟩ : ∃ js, m.columnsAt js = names := by
    refine Mapping.exists_columnsAt fun name hname => ?_
    obtain ⟨i, -, rfl⟩ := List.mem_map.1 (h.mem_iff.1 hname)
    exact Mapping.mem_columns_iff.2 ⟨i, rfl⟩
  have hperm := h.filterMap m.indexOf?
  rw [filterMap_columnsAt hm, filterMap_columnsAt hm] at hperm
  exact ⟨js, hperm, rfl⟩

theorem mem_zip_columnsAt {js : List m.Index} {values : List Value} {i : m.Index} {v : Value}
    (h : (i, v) ∈ js.zip values) : ((m.field i).column, v) ∈ (m.columnsAt js).zip values := by
  rw [Mapping.columnsAt, List.zip_map_left]
  exact List.mem_map.2 ⟨(i, v), h, rfl⟩

variable [JsonLibrary]

/-- A visit of a cursor of mapped columns fills in fields from its first row: all of them, if it
finds the row and they fit. -/
theorem fills_of_visitFirst (hm : type.mapping = .ok m) {c : Cursor}
    (hc : c.columns.Perm (m.columnsAt is)) (d : ρ) (found : Bool) {d' : ρ} {found' : Bool}
    (h : ((Session.visitFirst m type).exec ((d, found), c)).2.1 = (d', found')) :
    ∃ js, js ⊆ is ∧ (found' = true → found = true ∨ is ⊆ js) ∧
      F.Fills m js (fun i v => c.Gives (m.field i).column v) d d' := by
  rw [Session.visitFirst, Action.exec_of] at h
  dsimp only at h
  rw [Scan.exec_one, Cursor.next, Action.exec_of] at h
  cases hrows : c.rows with
  | nil =>
    rw [hrows] at h
    obtain ⟨rfl, rfl⟩ := Prod.mk.inj h
    exact ⟨[], List.nil_subset is, fun hfound => absurd hfound Bool.false_ne_true, F.fills_nil d⟩
  | cons first rest =>
    rw [hrows] at h
    cases first with
    | error e =>
      obtain ⟨rfl, rfl⟩ := Prod.mk.inj h
      exact ⟨[], List.nil_subset is, .inl, F.fills_nil d⟩
    | ok values =>
      -- The row has the columns in its own order, so it is copied in that order.
      obtain ⟨ks, hks, hnames⟩ := exists_columnsAt_of_perm hm hc
      dsimp only [Except.map] at h
      rcases hrow : (Scan.row m type c.columns values).exec d with ⟨r, d₁⟩
      rw [hrow] at h
      rw [hnames] at hrow
      obtain ⟨js, hjs, hall, hfills⟩ := Scan.fills_of_row (F := F) hm hrow
      have hgives : F.Fills m js (fun i v => c.Gives (m.field i).column v) d d₁ := by
        refine hfills.mono fun i _ v hv => ⟨values, by rw [hrows]; rfl, ?_⟩
        rw [hnames]
        exact mem_zip_columnsAt hv
      refine ⟨js, List.Subset.trans hjs.subset hks.subset, ?_⟩
      cases r with
      | error e =>
        obtain ⟨rfl, rfl⟩ := Prod.mk.inj h
        exact ⟨.inl, hgives⟩
      | ok u =>
        obtain ⟨rfl, rfl⟩ := Prod.mk.inj h
        refine ⟨fun _ => .inr ?_, hgives⟩
        rw [(hall rfl).1]
        exact hks.symm.subset

/-- **What a read has filled in** when it tells that there was a row. -/
theorem fills_of_scanFirst {s : Session σ η}
    {answers : η → String → List Value → σ → Cursor → Prop} (hshows : s.adapter.Shows answers)
    (hm : type.mapping = .ok m) {st : Statement} {d : ρ} {db : σ}
    (hcolumns : ∀ c, answers s.handle st.sql st.args db c → c.columns.Perm (m.columnsAt is))
    {d' : ρ} {db' : σ} (h : (s.scanFirst m type st).exec (d, db) = (.ok true, (d', db'))) :
    F.Fills m is
      (fun i v => ∃ c, answers s.handle st.sql st.args db c ∧ c.Gives (m.field i).column v)
      d d' := by
  rw [Session.scanFirst, Action.exec_of] at h
  dsimp only at h
  rcases hquery : (s.adapter.query s.handle st.sql st.args (Session.visitFirst m type)).exec
    ((d, false), db) with ⟨r, ⟨d₁, found⟩, db₁⟩
  rw [hquery] at h
  cases r with
  | error e => exact absurd h (by simp [Except.map])
  | ok u =>
    obtain ⟨hfound, hafter⟩ := Prod.mk.inj h
    obtain ⟨rfl, rfl⟩ := Prod.mk.inj hafter
    obtain rfl : found = true := Except.ok.inj hfound
    let supplied (i : m.Index) (v : Value) : Prop :=
      ∃ c, answers s.handle st.sql st.args db c ∧ c.Gives (m.field i).column v
    have hvisited := hshows _ _ _ _ _ _ _ _ hquery
    have hfilled : ∃ js, js ⊆ is ∧ (true = true → is ⊆ js) ∧ F.Fills m js supplied d d₁ := by
      refine hvisited.invariant
        (P := fun b => ∃ js, js ⊆ is ∧ (b.2 = true → is ⊆ js) ∧ F.Fills m js supplied d b.1) ?_ ?_
      · exact ⟨[], List.nil_subset is, fun hfound => absurd hfound Bool.false_ne_true,
          F.fills_nil d⟩
      · -- A cursor that is shown later replaces values by others of the same columns.
        rintro ⟨d₂, found₂⟩ c hc ⟨js, hjs, hall, hfills⟩
        obtain ⟨ks, hks, hall', hfills'⟩ :=
          fills_of_visitFirst (F := F) hm (hcolumns c hc) d₂ found₂ rfl
        have hshown : F.Fills m ks supplied d₂ _ := hfills'.mono fun i _ v hv => ⟨c, hc, hv⟩
        refine ⟨js ++ ks, List.append_subset.2 ⟨hjs, hks⟩, fun hfound => ?_,
          hfills.append hm hshown⟩
        rcases hall' hfound with hbefore | hnow
        · exact List.Subset.trans (hall hbefore) (List.subset_append_left js ks)
        · exact List.Subset.trans hnow (List.subset_append_right js ks)
    obtain ⟨js, hjs, hall, hfills⟩ := hfilled
    exact hfills.of_mem_iff fun i => ⟨fun hi => hall rfl hi, fun hi => hjs hi⟩

end Rows

/-! ## What is read back -/

namespace Session

variable (s : Session σ η) (m : Mapping) (type : RecordType ρ) (table : Table) (key : List m.Index)
  (answers : η → String → List Value → σ → Cursor → Prop) (d : ρ) (db : σ)

/-- The statements by which the insert of a record asks for columns, and when it asks: it is the
insert that asks, or the read behind it. -/
inductive Asks : Statement → List m.Index → σ → Prop where
  | insert {st : InsertStatement m}
    (hst : InsertStatement.ofRecord m type s.dialect table key d = .ok st)
    (hread : st.readBack ≠ []) (hmethod : s.dialect.insertMethod ≠ .lastInsertId) :
    Asks st.toStatement st.readBack db
  | fetch {st : InsertStatement m} {result : ExecResult} {db₁ : σ} {d₁ : ρ}
    {pending : List m.Index} {fetch : Statement}
    (hst : InsertStatement.ofRecord m type s.dialect table key d = .ok st)
    (hmethod : s.dialect.insertMethod = .lastInsertId)
    (hexec : (s.execute st.toStatement).exec db = (.ok result, db₁))
    (htake : takeId m type key st.readBack result.lastInsertId d = .ok (d₁, pending))
    (hpending : pending ≠ [])
    (hfetch : Statement.fetch m type s.dialect table key pending d₁ = .ok fetch) :
    Asks fetch pending db₁

/-- What is relied on of the answers to the insert of a record: its rows have the columns that were
asked for, and the driver reports an id where this is how columns are read back. -/
structure Answered : Prop where
  shows : s.adapter.Shows answers
  columns : ∀ st is db₁ c, s.Asks m type table key d db st is db₁ →
    answers s.handle st.sql st.args db₁ c → c.columns.Perm (m.columnsAt is)
  id : ∀ st result db₁, s.dialect.insertMethod = .lastInsertId →
    InsertStatement.ofRecord m type s.dialect table key d = .ok st →
    (s.execute st.toStatement).exec db = (.ok result, db₁) → ∃ n, result.lastInsertId = some n

/-- The database supplies a value for a column of an inserted record: the reported id for a key that
is this column alone, and else a value of this column in a row that was asked for. -/
inductive Supplies (i : m.Index) : Value → Prop where
  | id {st : InsertStatement m} {result : ExecResult} {db₁ : σ} {n : Int64}
    (hmethod : s.dialect.insertMethod = .lastInsertId) (hkey : key = [i])
    (hst : InsertStatement.ofRecord m type s.dialect table key d = .ok st)
    (hexec : (s.execute st.toStatement).exec db = (.ok result, db₁))
    (hid : result.lastInsertId = some n) : Supplies i (.integer n)
  | row {st : Statement} {is : List m.Index} {db₁ : σ} {c : Cursor} {v : Value}
    (hkey : s.dialect.insertMethod = .lastInsertId → key ≠ [i])
    (hasks : s.Asks m type table key d db st is db₁) (hi : i ∈ is)
    (hc : answers s.handle st.sql st.args db₁ c) (hv : c.Gives (m.field i).column v) :
    Supplies i v

variable {s m type table key answers d db}

/-! ## Reading back -/

theorem nodup_readBack {st : InsertStatement m} (h : s.checked m type table key d = .ok st) :
    st.readBack.Nodup := by
  obtain ⟨⟨plan, hplan, hread⟩, -⟩ := checked_eq_ok h
  rw [hread]
  exact (InsertPlan.sublist_of_eq_ok hplan).2.1.nodup (List.nodup_finRange _)

variable {F : type.Fields}

/-- The columns that are left behind the reported id. -/
theorem fills_of_takeId (hm : type.mapping = .ok m) {pending left : List m.Index} {n : Int64}
    {d₁ : ρ} {supplied : m.Index → Value → Prop}
    (hid : ∀ i, key = [i] → supplied i (.integer n)) (hpending : pending.Nodup)
    (h : takeId m type key pending (some n) d = .ok (d₁, left)) :
    ∃ taken, F.Fills m taken supplied d d₁ ∧ (∀ i, i ∈ pending ↔ i ∈ taken ++ left) ∧
      ∀ i, key = [i] → i ∉ left := by
  unfold takeId at h
  split at h
  · next i id hsome =>
    obtain rfl := Option.some.inj hsome
    split at h
    · next hi =>
      dsimp only at h
      split at h
      · next d₂ hset =>
        obtain ⟨rfl, rfl⟩ := Prod.mk.inj (Except.ok.inj h)
        refine ⟨[i], F.fills_of_set hm (hid i rfl) hset, fun j => ?_, fun j hj => ?_⟩
        · rw [List.singleton_append, (List.perm_cons_erase hi).mem_iff]
        · obtain rfl := List.singleton_inj.1 hj
          exact hpending.not_mem_erase
      · exact absurd h (by simp)
    · next hi =>
      obtain ⟨rfl, rfl⟩ := Prod.mk.inj (Except.ok.inj h)
      refine ⟨[], F.fills_nil d, fun j => by rw [List.nil_append], fun j hj => ?_⟩
      rwa [← List.singleton_inj.1 hj]
  · next hno =>
    obtain ⟨rfl, rfl⟩ := Prod.mk.inj (Except.ok.inj h)
    refine ⟨[], F.fills_nil d, fun j => by rw [List.nil_append], fun j hj => ?_⟩
    exact absurd rfl (hno j n hj)

variable [JsonLibrary]

theorem fills_of_insertReturning (ha : s.Answered m type table key answers d db)
    (hm : type.mapping = .ok m) {st : InsertStatement m}
    (hst : InsertStatement.ofRecord m type s.dialect table key d = .ok st)
    (hread : st.readBack ≠ []) (hmethod : s.dialect.insertMethod ≠ .lastInsertId) {d' : ρ} {db' : σ}
    (h : (s.insertReturning m type st.toStatement).exec (d, db) = (.ok (), (d', db'))) :
    F.Fills m st.readBack (s.Supplies m type table key answers d db) d d' := by
  have hasks : s.Asks m type table key d db st.toStatement st.readBack db :=
    .insert hst hread hmethod
  rw [exec_insertReturning] at h
  split at h
  · next after hscan =>
    obtain ⟨-, rfl⟩ := Prod.mk.inj h
    have hfills := fills_of_scanFirst (F := F) ha.shows hm (ha.columns _ _ _ · hasks) hscan
    refine hfills.mono fun i hi v hv => ?_
    obtain ⟨c, hc, hv⟩ := hv
    exact .row (fun hlast => absurd hlast hmethod) hasks hi hc hv
  · exact absurd h (by simp)
  · exact absurd h (by simp)

theorem fills_of_readAssigned (ha : s.Answered m type table key answers d db)
    (hm : type.mapping = .ok m) {st : InsertStatement m} {result : ExecResult} {db₁ : σ}
    (hchecked : s.checked m type table key d = .ok st)
    (hmethod : s.dialect.insertMethod = .lastInsertId)
    (hexec : (s.execute st.toStatement).exec db = (.ok result, db₁)) {d' : ρ} {db' : σ}
    (h : (s.readAssigned m type table key st.readBack result.lastInsertId).exec (d, db₁) =
      (.ok (), (d', db'))) :
    F.Fills m st.readBack (s.Supplies m type table key answers d db) d d' := by
  have hst := s.ofRecord_of_checked m type table key hchecked
  obtain ⟨n, hn⟩ := ha.id st result db₁ hmethod hst hexec
  rw [exec_readAssigned] at h
  split at h
  · exact absurd h (by simp)
  · next d₁ left htake =>
    have htaken := htake
    rw [hn] at htaken
    have hid : ∀ i, key = [i] → s.Supplies m type table key answers d db i (.integer n) :=
      fun i hi => .id hmethod hi hst hexec hn
    obtain ⟨taken, hfills, hmem, hkey⟩ :=
      fills_of_takeId (F := F) hm hid (nodup_readBack hchecked) htaken
    suffices hall : F.Fills m (taken ++ left) (s.Supplies m type table key answers d db) d d' from
      hall.of_mem_iff hmem
    by_cases hleft : left = []
    · rw [if_pos hleft] at h
      obtain ⟨-, rfl, rfl⟩ := Prod.mk.inj h
      rwa [hleft, List.append_nil]
    · rw [if_neg hleft] at h
      split at h
      · exact absurd h (by simp)
      · next fetch hfetch =>
        have hasks : s.Asks m type table key d db fetch left db₁ :=
          .fetch hst hmethod hexec htake hleft hfetch
        split at h
        · next after hscan =>
          obtain ⟨-, rfl⟩ := Prod.mk.inj h
          have hrow := fills_of_scanFirst (F := F) ha.shows hm (ha.columns _ _ _ · hasks) hscan
          refine hfills.append hm (hrow.mono fun i hi v hv => ?_)
          obtain ⟨c, hc, hv⟩ := hv
          exact .row (fun _ hi' => hkey i hi' hi) hasks hi hc hv
        · exact absurd h (by simp)
        · exact absurd h (by simp)

theorem fills_of_insertOne (ha : s.Answered m type table key answers d db)
    (hm : type.mapping = .ok m) {d' : ρ} {db' : σ}
    (h : (s.insertOne m type table key).exec (d, db) = (.ok (), (d', db'))) :
    ∃ st, InsertStatement.ofRecord m type s.dialect table key d = .ok st ∧
      F.Fills m st.readBack (s.Supplies m type table key answers d db) d d' := by
  cases hchecked : s.checked m type table key d with
  | error e =>
    rw [exec_insertOne_of_refused _ _ _ _ _ hchecked] at h
    exact absurd h (by simp)
  | ok st =>
    have hst := s.ofRecord_of_checked m type table key hchecked
    refine ⟨st, hst, ?_⟩
    rw [exec_insertOne_of_checked _ _ _ _ _ hchecked, exec_send] at h
    by_cases hread : st.readBack = []
    · rw [if_pos hread] at h
      obtain ⟨-, rfl, -⟩ := Prod.mk.inj h
      rw [hread]
      exact F.fills_nil d
    · rw [if_neg hread] at h
      by_cases hmethod : s.dialect.insertMethod = .lastInsertId
      · rw [if_pos hmethod] at h
        split at h
        · exact absurd h (by simp)
        · next result db₁ hexec => exact fills_of_readAssigned ha hm hchecked hmethod hexec h
      · rw [if_neg hmethod] at h
        exact fills_of_insertReturning ha hm hst hread hmethod h

end Session

/-! ## Main result -/

/-- **What a successful insert has filled in.**  The columns that were to be read back hold what the
database supplied for each of them; all other fields, and the remainder field, hold what they
held. -/
theorem insert_fills [JsonLibrary] {type : RecordType ρ} (F : type.Fields) (table : Table) (s : Session σ η)
    {m : Mapping} {key : List m.Index} (hm : type.mapping = .ok m)
    (hkey : s.key m table = .ok key) (answers : η → String → List Value → σ → Cursor → Prop)
    (d : ρ) (db : σ) (ha : s.Answered m type table key answers d db) {d' : ρ} {db' : σ}
    (h : (s.insert type table).exec (d, db) = (.ok (), (d', db'))) :
    ∃ st, InsertStatement.ofRecord m type s.dialect table key d = .ok st ∧
      (∀ i, i ∉ st.readBack → F.Keeps (m.field i).path d d') ∧
      (∀ r ∈ m.remainder, F.Keeps r.path d d') ∧
      ∀ i ∈ st.readBack, ∃ v, s.Supplies m type table key answers d db i v ∧
        F.Decodes (m.field i).path v d' := by
  rw [Session.exec_insert, hm] at h
  dsimp only at h
  rw [hkey] at h
  obtain ⟨st, hst, hfills⟩ := Session.fills_of_insertOne (F := F) ha hm h
  exact ⟨st, hst, fun i hi => hfills.keeps_field hm hi, fun r hr => hfills.keeps_remainder hm hr,
    hfills.decodes⟩

/-! ## A note that is inserted -/

/-- The insert of a note that has a code only. -/
def noteInsert : InsertStatement noteMapping where
  kind := .insert
  table := "notes"
  columns := ["code"]
  filter := none
  sql := "INSERT INTO notes (\x22code\x22) VALUES (?)"
  args := [.text "a"]
  readBack := noteReadBack
  method := .lastInsertId

theorem ofRecord_draft :
    InsertStatement.ofRecord noteMapping noteType .sqlite ⟨"notes", []⟩ [noteKey]
      (noteOf 0 "a" "" "") = .ok noteInsert := by
  rfl

/-- The columns of an inserted note, in another order than they were asked for. -/
def noteRow : Cursor := { columns := ["stamp", "CODE"], rows := [.ok [.text "noon", .text "A"]] }

/-- A driver that numbers its rows from seven and answers with such a row. -/
def noteAdapter : Adapter Unit Unit where
  dialectName := "sqlite3"
  execute _ _ _ := pure ⟨1, some 7⟩
  query _ _ _ visit := .of fun (b, db) =>
    let (r, (b, _)) := visit.exec (b, noteRow)
    (r, (b, db))
  transaction handle body := body handle
  close _ := pure ()

/-- What this driver answers with. -/
def noteAnswers (_ : Unit) (_ : String) (_ : List Value) (_ : Unit) (c : Cursor) : Prop :=
  c = noteRow

/-- A session of this driver. -/
def noteSession : Session Unit Unit := ⟨noteAdapter, (), .sqlite, "id"⟩

theorem exec_insert_note :
    (noteSession.insert noteType ⟨"notes", []⟩).exec (noteOf 0 "a" "" "", ()) =
      (.ok (), (noteOf 7 "a" "A" "noon", ())) := by
  rfl

theorem answered_note :
    noteSession.Answered noteMapping noteType ⟨"notes", []⟩ [noteKey] noteAnswers
      (noteOf 0 "a" "" "") () where
  shows {β} handle sql args visit b db b' db' h := by
    obtain ⟨-, hafter⟩ := Prod.mk.inj h
    obtain ⟨rfl, -⟩ := Prod.mk.inj hafter
    exact .seen .unseen rfl
  columns st is db₁ c hasks hc := by
    obtain rfl := hc
    cases hasks with
    | insert hst hread hmethod => exact absurd rfl hmethod
    | fetch hst hmethod hexec htake hpending hfetch =>
      obtain rfl := Except.ok.inj (ofRecord_draft.symm.trans hst)
      obtain rfl := Except.ok.inj (Prod.mk.inj hexec).1
      obtain ⟨-, rfl⟩ := Prod.mk.inj (Except.ok.inj htake)
      decide
  id st result db₁ hmethod hst hexec := by
    obtain rfl := Except.ok.inj (Prod.mk.inj hexec).1
    exact ⟨7, rfl⟩

/-- The inserted note has the id that was reported, and a label that is not taken for its code. -/
theorem insert_fills_note :
    (noteSession.key noteMapping ⟨"notes", []⟩ = .ok [noteKey] ∧
      noteSession.Answered noteMapping noteType ⟨"notes", []⟩ [noteKey] noteAnswers
        (noteOf 0 "a" "" "") () ∧
      (noteSession.insert noteType ⟨"notes", []⟩).exec (noteOf 0 "a" "" "", ()) =
        (.ok (), (noteOf 7 "a" "A" "noon", ()))) ∧
    ∃ st, InsertStatement.ofRecord noteMapping noteType .sqlite ⟨"notes", []⟩ [noteKey]
        (noteOf 0 "a" "" "") = .ok st ∧
      (∀ i, i ∉ st.readBack →
        noteFields.Keeps (noteMapping.field i).path (noteOf 0 "a" "" "")
          (noteOf 7 "a" "A" "noon")) ∧
      (∀ r ∈ noteMapping.remainder,
        noteFields.Keeps r.path (noteOf 0 "a" "" "") (noteOf 7 "a" "A" "noon")) ∧
      ∀ i ∈ st.readBack, ∃ v,
        noteSession.Supplies noteMapping noteType ⟨"notes", []⟩ [noteKey] noteAnswers
          (noteOf 0 "a" "" "") () i v ∧
        noteFields.Decodes (noteMapping.field i).path v (noteOf 7 "a" "A" "noon") := by
  have hkey : noteSession.key noteMapping ⟨"notes", []⟩ = .ok [noteKey] := by rfl
  exact ⟨⟨hkey, answered_note, exec_insert_note⟩,
    insert_fills noteFields ⟨"notes", []⟩ noteSession mapping_noteType hkey noteAnswers _ _
      answered_note exec_insert_note⟩

end TableRecords
