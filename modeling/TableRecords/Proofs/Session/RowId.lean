import TableRecords.Proofs.Session.Assigned

/-!
# The id of an inserted row

Where the driver reports the id of a row, a key that is one pending column is set to this id, and
the other columns are asked for by what the key then holds.  So the key is the id if the codec of
its field keeps integers, and only then:

    insert_takes_id : the key and the argument of the read are the id ↔ the codec keeps it

A truth value takes every id before anything is sent, and keeps two of them (`flag_loses_id`).
-/

namespace TableRecords

open Rehearsal (Call)

variable {σ η ρ : Type}

/-- What takes an integer gives it back. -/
def Codec.KeepsInteger (c : Codec) (n : Int64) : Prop :=
  ∃ x, c.decode (.integer n) = .ok x ∧ c.encode x = .ok (.integer n)

variable {m : Mapping} {type : RecordType ρ} {F : type.Fields}

/-- A field that took an integer holds it if its codec keeps it. -/
theorem valueOf_eq_integer_iff {i : m.Index} {p : F.Place} (hp : F.path p = (m.field i).path)
    {n : Int64} {d : ρ} (h : F.Decodes (m.field i).path (.integer n) d) :
    m.valueOf type d i = .ok (.integer n) ↔ (F.codec p).KeepsInteger n := by
  obtain ⟨q, hq, hdecode⟩ := h
  obtain rfl : q = p := F.path_injective (hq.trans hp.symm)
  rw [Mapping.valueOf_eq_ok_iff, ← hp, F.get_path]
  constructor
  · exact fun hencode => ⟨_, hdecode, hencode⟩
  · rintro ⟨x, hx, hencode⟩
    rwa [Except.ok.inj (hdecode.symm.trans hx)]

theorem InsertStatement.mem_readBack_iff {dialect : Dialect} {table : Table} {key : List m.Index}
    {d : ρ} {st : InsertStatement m} (h : ofRecord m type dialect table key d = .ok st)
    (i : m.Index) : i ∈ st.readBack ↔ m.Pending type key d i := by
  obtain ⟨plan, hplan, -, rfl⟩ := ofRecord_eq_ok_iff.1 h
  exact (InsertPlan.mem_iff hplan i).2.trans (and_iff_right (List.mem_finRange i))

namespace Session

/-- The driver reports an id for the insert of a record. -/
def Reports (s : Session σ η) (m : Mapping) (type : RecordType ρ) (table : Table)
    (key : List m.Index) (d : ρ) (db : σ) (id : Int64) : Prop :=
  ∀ st result db₁, InsertStatement.ofRecord m type s.dialect table key d = .ok st →
    (s.execute st.toStatement).exec db = (.ok result, db₁) → result.lastInsertId = some id

variable {s : Session σ η} {table : Table} {i : m.Index} {d : ρ} {db : σ} {id : Int64}

/-- What is supplied for the key is the reported id. -/
theorem eq_of_supplies {answers : η → String → List Value → σ → Cursor → Prop} {v : Value}
    (hmethod : s.dialect.insertMethod = .lastInsertId) (hid : s.Reports m type table [i] d db id)
    (h : s.Supplies m type table [i] answers d db i v) : v = .integer id := by
  cases h with
  | id _ _ hst hexec hn =>
    obtain rfl := Option.some.inj (hn.symm.trans (hid _ _ _ hst hexec))
    rfl
  | row hkey => exact absurd rfl (hkey hmethod)

/-- The arguments of the read behind an insert are what the key holds. -/
theorem args_of_fetch {pending : List m.Index} {fetch : Statement}
    (h : Statement.fetch m type s.dialect table [i] pending d = .ok fetch) :
    ∃ v, fetch.args = [v] ∧ m.valueOf type d i = .ok v := by
  rw [Statement.fetch, bind_eq_ok_iff] at h
  obtain ⟨values, hvalues, hfetch⟩ := h
  obtain rfl := Except.ok.inj hfetch
  have hmap := (Mapping.keyValues_eq_ok_iff.1 hvalues).2
  cases values with
  | nil => exact absurd hmap (by simp)
  | cons v values =>
    obtain ⟨hv, hnil⟩ := List.cons.inj hmap
    obtain rfl := List.map_eq_nil_iff.1 hnil.symm
    exact ⟨v, rfl, hv⟩

variable [JsonLibrary]

/-- The read behind an insert, if there is one, asks by a key that took the id. -/
theorem query_of_readAssigned (F : type.Fields) (hm : type.mapping = .ok m)
    {pending : List m.Index} (hi : i ∈ pending) {calls calls' : List Call} {r : Except Error Unit}
    {d' : ρ} {db' : σ}
    (h : (s.traced.readAssigned m type table [i] pending (some id)).exec (d, (db, calls)) =
      (r, (d', (db', calls')))) {sql : String} {args : List Value}
    (hcall : .query sql args ∈ calls') (hnew : .query sql args ∉ calls) :
    ∃ d₁ v, F.Decodes (m.field i).path (.integer id) d₁ ∧ args = [v] ∧
      m.valueOf type d₁ i = .ok v := by
  rw [exec_readAssigned, takeId_some hi] at h
  cases hset : type.set d (m.field i).path (.integer id) with
  | error e =>
    rw [hset] at h
    cases h
    exact absurd hcall hnew
  | ok d₁ =>
    rw [hset] at h
    dsimp only at h
    split at h
    · cases h
      exact absurd hcall hnew
    · cases hfetch : Statement.fetch m type s.dialect table [i] (pending.erase i) d₁ with
      | error e =>
        rw [dialect_traced, hfetch] at h
        cases h
        exact absurd hcall hnew
      | ok fetch =>
        rw [dialect_traced, hfetch] at h
        dsimp only at h
        rw [exec_scanFirst_traced] at h
        rcases hscan : (s.scanFirst m type fetch).exec (d₁, db) with ⟨found, d₂, db₂⟩
        rw [hscan] at h
        have hcalls : calls' = calls ++ [.query fetch.sql fetch.args] := by
          rcases found with e | _ | _ <;> cases h <;> rfl
        rw [hcalls] at hcall
        rcases List.mem_append.1 hcall with hcall | hcall
        · exact absurd hcall hnew
        · obtain ⟨rfl, rfl⟩ := Call.query.inj (List.mem_singleton.1 hcall)
          obtain ⟨v, hargs, hv⟩ := args_of_fetch hfetch
          exact ⟨d₁, v, (F.of_set_eq_ok (addresses_path hm i) hset).1, hargs, hv⟩

/-- The read behind an insert, if there is one, asks by a key that took the id. -/
theorem query_of_insertOne (F : type.Fields) (hm : type.mapping = .ok m)
    (hmethod : s.dialect.insertMethod = .lastInsertId)
    (hpending : m.Pending type [i] d i) (hid : s.Reports m type table [i] d db id)
    {r : Except Error Unit} {d' : ρ} {db' : σ} {calls : List Call}
    (h : (s.traced.insertOne m type table [i]).exec (d, (db, [])) = (r, (d', (db', calls))))
    {sql : String} {args : List Value} (hcall : .query sql args ∈ calls) :
    ∃ d₁ v, F.Decodes (m.field i).path (.integer id) d₁ ∧ args = [v] ∧
      m.valueOf type d₁ i = .ok v := by
  cases hchecked : s.traced.checked m type table [i] d with
  | error e =>
    rw [exec_insertOne_of_refused _ _ _ _ _ hchecked] at h
    cases h
    exact absurd hcall List.not_mem_nil
  | ok st =>
    have hst := s.ofRecord_of_checked m type table [i] hchecked
    have hread := (InsertStatement.mem_readBack_iff hst i).2 hpending
    rw [exec_insertOne_of_checked _ _ _ _ _ hchecked, exec_send,
      if_neg (List.ne_nil_of_mem hread), dialect_traced, if_pos hmethod, exec_execute_traced] at h
    rcases hexec : (s.execute st.toStatement).exec db with ⟨result, db₁⟩
    rw [hexec] at h
    cases result with
    | error e =>
      cases h
      exact absurd hcall (by simp)
    | ok result =>
      dsimp only at h
      rw [hid st result db₁ hst hexec] at h
      exact query_of_readAssigned F hm hread h hcall (by simp)

end Session

/-! ## Main result -/

/-- **When the key of an inserted record is the id of its row.**  Where the driver reports an id for
a key that is one pending column, the key of a record that is inserted, and the argument by which
its other columns are asked for, are this id exactly if the codec of the key field keeps it.  Of the
types of the library, those of `FieldType.KeepsInteger` do. -/
theorem insert_takes_id [JsonLibrary] {type : RecordType ρ} (F : type.Fields) (table : Table) (s : Session σ η)
    {m : Mapping} {i : m.Index} (hm : type.mapping = .ok m) (hkey : s.key m table = .ok [i])
    (hmethod : s.dialect.insertMethod = .lastInsertId)
    (answers : η → String → List Value → σ → Cursor → Prop) (d : ρ) (db : σ)
    (hpending : m.Pending type [i] d i) (ha : s.Answered m type table [i] answers d db) {id : Int64}
    (hid : s.Reports m type table [i] d db id) (p : F.Place) (hp : F.path p = (m.field i).path)
    {r : Except Error Unit} {d' : ρ} {db' : σ} {calls : List Call}
    (h : (s.traced.insert type table).exec (d, (db, [])) = (r, (d', (db', calls)))) :
    (r = .ok () → (m.valueOf type d' i = .ok (.integer id) ↔ (F.codec p).KeepsInteger id)) ∧
    (∀ sql args, .query sql args ∈ calls →
      (args = [.integer id] ↔ (F.codec p).KeepsInteger id)) ∧
    ∀ t : FieldType, F.codec p = t.codec → ((F.codec p).KeepsInteger id ↔ t.KeepsInteger id) := by
  rw [Session.exec_insert, hm] at h
  dsimp only at h
  rw [Session.key_traced, hkey] at h
  dsimp only at h
  refine ⟨?_, ?_, ?_⟩
  · rintro rfl
    obtain ⟨more, hlogs, -⟩ := s.logs_insertOne m type table [i] d db []
    rw [Action.Logs, h] at hlogs
    rcases hrun : (s.insertOne m type table [i]).exec (d, db) with ⟨r, d₁, db₁⟩
    rw [hrun] at hlogs
    cases hlogs
    obtain ⟨st, hst, hfills⟩ := Session.fills_of_insertOne (F := F) ha hm hrun
    have hread := (InsertStatement.mem_readBack_iff hst i).2 hpending
    obtain ⟨v, hsupplies, hdecodes⟩ := hfills.decodes i hread
    obtain rfl := Session.eq_of_supplies hmethod hid hsupplies
    exact valueOf_eq_integer_iff hp hdecodes
  · intro sql args hcall
    obtain ⟨d₁, v, hdecodes, rfl, hv⟩ :=
      Session.query_of_insertOne F hm hmethod hpending hid h hcall
    rw [← valueOf_eq_integer_iff hp hdecodes, hv]
    simp
  · rintro t ht
    rw [ht]
    exact FieldType.keepsInteger_iff

/-! ## A note and a flag -/

theorem reports_noteSession {type : RecordType ρ} {m : Mapping} {table : Table}
    {key : List m.Index} {d : ρ} : noteSession.Reports m type table key d () 7 := by
  intro st result db₁ hst hexec
  obtain rfl := Except.ok.inj (Prod.mk.inj hexec).1
  rfl

/-- The calls by which a note is inserted, if its key is read with `keyArg`. -/
def noteCalls (keyArg : Value) : List Call :=
  [.execute "INSERT INTO notes (\x22code\x22) VALUES (?)" [.text "a"],
    .query "SELECT \x22CODE\x22, \x22stamp\x22 FROM notes WHERE \x22id\x22 = ?" [keyArg]]

theorem exec_insert_note_traced :
    (noteSession.traced.insert noteType ⟨"notes", []⟩).exec (noteOf 0 "a" "" "", ((), [])) =
      (.ok (), (noteOf 7 "a" "A" "noon", ((), noteCalls (.integer 7)))) := by
  rfl

theorem pending_noteKey :
    noteMapping.Pending noteType [noteKey] (noteOf 0 "a" "" "") noteKey :=
  .inr ⟨List.mem_cons_self, .integer 0, rfl, .integer⟩

/-- The key of a note is an integer, so that it is the id of the row. -/
theorem insert_takes_id_note :
    (noteSession.key noteMapping ⟨"notes", []⟩ = .ok [noteKey] ∧
      noteMapping.Pending noteType [noteKey] (noteOf 0 "a" "" "") noteKey ∧
      noteSession.Answered noteMapping noteType ⟨"notes", []⟩ [noteKey] noteAnswers
        (noteOf 0 "a" "" "") () ∧
      noteSession.Reports noteMapping noteType ⟨"notes", []⟩ [noteKey] (noteOf 0 "a" "" "") () 7) ∧
    noteMapping.valueOf noteType (noteOf 7 "a" "A" "noon") noteKey = .ok (.integer 7) := by
  have hkey : noteSession.key noteMapping ⟨"notes", []⟩ = .ok [noteKey] := by rfl
  refine ⟨⟨hkey, pending_noteKey, answered_note, reports_noteSession⟩, ?_⟩
  obtain ⟨hvalue, -, hlibrary⟩ := insert_takes_id noteFields ⟨"notes", []⟩ noteSession
    mapping_noteType hkey rfl noteAnswers _ () pending_noteKey answered_note reports_noteSession
    Shape.Leaf.here rfl exec_insert_note_traced
  exact (hvalue rfl).2 ((hlibrary (.int .int64) rfl).2 (IntKind.int64_holds 7))

/-- Notes whose key is a truth value. -/
def flagShape : Shape :=
  .plain "id" "id,pk" .bool
    (.plain "code" "code" .text
      (.plain "label" "CODE,generated" .text (.plain "stamp" "stamp,generated" .text .nil)))

/-- The type of flags. -/
def flagType : RecordType flagShape.Data := flagShape.recordType "Flag"

/-- The columns of flags. -/
def flagMapping : Mapping :=
  ⟨"Flag", [⟨"id", "id", [0], true, false⟩, ⟨"code", "code", [1], false, false⟩,
    ⟨"CODE", "label", [2], false, true⟩, ⟨"stamp", "stamp", [3], false, true⟩], [0],
    ⟨[("id", 0), ("code", 1), ("CODE", 2), ("stamp", 3)], [("id", 0), ("code", 1), ("stamp", 3)]⟩,
    none⟩

/-- The key of flags. -/
def flagKey : flagMapping.Index := ⟨0, by decide⟩

/-- A flag with a key, a code, a label and a stamp. -/
def flagOf (id : Bool) (code label stamp : String) : flagShape.Data :=
  (id, code, label, stamp, ())

theorem answered_flag :
    noteSession.Answered flagMapping flagType ⟨"notes", []⟩ [flagKey] noteAnswers
      (flagOf false "a" "" "") () where
  shows := answered_note.shows
  columns st is db₁ c hasks hc := by
    obtain rfl := hc
    cases hasks with
    | insert hst hread hmethod => exact absurd rfl hmethod
    | fetch hst hmethod hexec htake hpending hfetch =>
      obtain rfl := Except.ok.inj hst
      obtain rfl := Except.ok.inj (Prod.mk.inj hexec).1
      obtain ⟨-, rfl⟩ := Prod.mk.inj (Except.ok.inj htake)
      decide
  id st result db₁ hmethod hst hexec := ⟨7, reports_noteSession st result db₁ hst hexec⟩

/-- A key that is a truth value takes the id 7, and is then read by the argument 1. -/
theorem flag_loses_id :
    (flagType.mapping = .ok flagMapping ∧
      noteSession.key flagMapping ⟨"notes", []⟩ = .ok [flagKey] ∧
      flagMapping.Pending flagType [flagKey] (flagOf false "a" "" "") flagKey ∧
      noteSession.Answered flagMapping flagType ⟨"notes", []⟩ [flagKey] noteAnswers
        (flagOf false "a" "" "") () ∧
      noteSession.Reports flagMapping flagType ⟨"notes", []⟩ [flagKey] (flagOf false "a" "" "") ()
        7) ∧
    (noteSession.traced.insert flagType ⟨"notes", []⟩).exec (flagOf false "a" "" "", ((), [])) =
      (.ok (), (flagOf true "a" "A" "noon", ((), noteCalls (.integer 1)))) ∧
    flagMapping.valueOf flagType (flagOf true "a" "A" "noon") flagKey ≠ .ok (.integer 7) ∧
    .query "SELECT \x22CODE\x22, \x22stamp\x22 FROM notes WHERE \x22id\x22 = ?" [.integer 7] ∉
      noteCalls (.integer 1) := by
  have hpending : flagMapping.Pending flagType [flagKey] (flagOf false "a" "" "") flagKey :=
    .inr ⟨List.mem_cons_self, .integer 0, rfl, .integer⟩
  refine ⟨⟨rfl, rfl, hpending, answered_flag, reports_noteSession⟩, rfl, ?_, by decide⟩
  have hone : flagMapping.valueOf flagType (flagOf true "a" "A" "noon") flagKey =
    .ok (.integer 1) := rfl
  rw [hone]
  exact fun h => absurd (Value.integer.inj (Except.ok.inj h)) (by decide)

end TableRecords
