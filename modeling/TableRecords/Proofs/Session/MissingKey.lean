import TableRecords.Json.Standard
import TableRecords.Proofs.Rehearsal.Script
import TableRecords.Proofs.Session.Unread

/-!
# Missing keys after a call

A missing key is the error of an insert that is refused, and nothing is sent then.  It is also the
error of an insert whose row is written while its key is not known, `Session.LosesKey`:

    insertOne_missing_iff      : past the checks, a missing key is a lost key
    missingPrimaryKey_sent_iff : after a call, a missing key is a lost key
-/

namespace TableRecords

open Rehearsal (Call)

variable {σ η ρ : Type} {s : Session σ η} {m : Mapping} {type : RecordType ρ} {table : Table}
  {key : List m.Index} {P : Cursor → Prop}

/-! ## Lost keys -/

/-- A field holds a zero value: as part of a key it is not assigned. -/
def Mapping.HoldsZero (m : Mapping) (type : RecordType ρ) (d : ρ) (i : m.Index) : Prop :=
  ∃ v, m.valueOf type d i = .ok v ∧ v.isZero = true

theorem Mapping.keyValue_eq_missing_iff {d : ρ} {i : m.Index} :
    (∃ t c, m.keyValue type table d i = .error (.missingPrimaryKey t c)) ↔
      m.HoldsZero type d i := by
  unfold keyValue HoldsZero valueOf
  cases type.get d (m.field i).path with
  | error e => simp [Except.mapError, bind, Except.bind]
  | ok v =>
    cases hv : v.isZero <;> simp [Except.mapError, bind, Except.bind, hv]

namespace Session

/-- The row of an insert is written, but its key is lost: the id that was to be the key of the
record is missing, or is zero while other columns are still to be read by it. -/
def LosesKey (s : Session σ η) (m : Mapping) (type : RecordType ρ) (table : Table)
    (key : List m.Index) (d : ρ) (db : σ) : Prop :=
  s.dialect.insertMethod = .lastInsertId ∧
    ∃ st result db₁ i, s.checked m type table key d = .ok st ∧
      (s.execute st.toStatement).exec db = (.ok result, db₁) ∧ key = [i] ∧ i ∈ st.readBack ∧
      match result.lastInsertId with
      | none => m.HoldsZero type d i
      | some id => st.readBack ≠ [i] ∧
        ∃ d₁, type.set d (m.field i).path (.integer id) = .ok d₁ ∧ m.HoldsZero type d₁ i

theorem losesKey_iff {d : ρ} {db : σ} :
    s.LosesKey m type table key d db ↔
      ∃ st t c, s.checked m type table key d = .ok st ∧
        s.Unread m type table key st d db (.missingPrimaryKey t c) := by
  constructor
  · rintro ⟨hmethod, st, result, db₁, i, hchecked, hexec, rfl, hi, hid⟩
    have hlost : ∃ d₁, m.HoldsZero type d₁ i ∧ match result.lastInsertId with
        | none => d₁ = d
        | some id => st.readBack ≠ [i] ∧
          type.set d (m.field i).path (.integer id) = .ok d₁ := by
      split at hid
      · exact ⟨d, hid, rfl⟩
      · obtain ⟨hne, d₁, hset, hzero⟩ := hid
        exact ⟨d₁, hzero, hne, hset⟩
    obtain ⟨d₁, hzero, hid⟩ := hlost
    obtain ⟨t, c, hvalue⟩ := Mapping.keyValue_eq_missing_iff.2 hzero
    exact ⟨st, t, c, hchecked,
      (unread_iff hchecked).2 ⟨hmethod, result, db₁, i, d₁, hexec, rfl, hi, hvalue, hid⟩⟩
  · rintro ⟨st, t, c, hchecked, hunread⟩
    obtain ⟨hmethod, result, db₁, i, d₁, hexec, hkey, hi, hvalue, hid⟩ :=
      (unread_iff hchecked).1 hunread
    have hzero := Mapping.keyValue_eq_missing_iff.1 ⟨t, c, hvalue⟩
    refine ⟨hmethod, st, result, db₁, i, hchecked, hexec, hkey, hi, ?_⟩
    cases hlast : result.lastInsertId with
    | none =>
      rw [hlast] at hid
      obtain rfl := hid
      exact hzero
    | some id =>
      rw [hlast] at hid
      exact ⟨hid.1, d₁, hid.2, hzero⟩

theorem not_losesKey_of_refused {d : ρ} {db : σ} {e : Error}
    (hrefused : s.checked m type table key d = .error e) :
    ¬ s.LosesKey m type table key d db := by
  rintro ⟨-, st, -, -, -, hchecked, -⟩
  rw [hrefused] at hchecked
  exact absurd hchecked (by simp)

/-- The records of a list, each behind those before it. -/
theorem exists_behind_cons_iff {α : Type} {x : α} {xs : List α} {Q : List α → α → Prop} :
    (∃ before y after, x :: xs = before ++ y :: after ∧ Q before y) ↔
      Q [] x ∨ ∃ before y after, xs = before ++ y :: after ∧ Q (x :: before) y := by
  constructor
  · rintro ⟨before, y, after, hsplit, hQ⟩
    cases before with
    | nil =>
      obtain ⟨rfl, -⟩ := List.cons.inj hsplit
      exact .inl hQ
    | cons z before =>
      rw [List.cons_append] at hsplit
      obtain ⟨rfl, hrest⟩ := List.cons.inj hsplit
      exact .inr ⟨before, y, after, hrest, hQ⟩
  · rintro (hQ | ⟨before, y, after, rfl, hQ⟩)
    · exact ⟨[], x, xs, rfl, hQ⟩
    · exact ⟨x :: before, y, after, rfl, hQ⟩

variable [JsonLibrary]

/-- An insert past its checks tells of a missing key exactly if it lost the key. -/
theorem insertOne_missing_iff (ha : s.adapter.Serves P) {d : ρ} {db : σ} {st : InsertStatement m}
    (hchecked : s.checked m type table key d = .ok st) :
    (∃ t c, ((s.insertOne m type table key).exec (d, db)).1 = .error (.missingPrimaryKey t c)) ↔
      s.LosesKey m type table key d db := by
  rw [s.exec_insertOne_of_checked m type table key hchecked, losesKey_iff]
  constructor
  · rintro ⟨t, c, h⟩
    rcases hsend : (s.send m type table key st).exec (d, db) with ⟨r, after⟩
    rw [hsend] at h
    obtain rfl : r = .error (.missingPrimaryKey t c) := h
    rcases error_of_send ha hsend with hreported | hunread
    · exact absurd rfl (hreported.ne_missingPrimaryKey t c)
    · exact ⟨st, t, c, hchecked, hunread⟩
  · rintro ⟨st', t, c, hchecked', hunread⟩
    rw [hchecked] at hchecked'
    obtain rfl := Except.ok.inj hchecked'
    exact ⟨t, c, send_of_unread hunread⟩

/-- One of several records loses its key, after all are checked and those before it are inserted. -/
def LosesKeyAmong (s : Session σ η) (m : Mapping) (type : RecordType ρ) (table : Table)
    (key : List m.Index) (ds : List ρ) (db : σ) : Prop :=
  (∀ d ∈ ds, ∃ st, s.checked m type table key d = .ok st) ∧
    ∃ before d after, ds = before ++ d :: after ∧
      ∃ before' db₁, s.insertEach m type table key before db = (.ok (), (before', db₁)) ∧
        s.LosesKey m type table key d db₁

theorem not_losesKeyAmong_nil {db : σ} : ¬ s.LosesKeyAmong m type table key [] db := by
  rintro ⟨-, before, d, after, hsplit, -⟩
  exact absurd hsplit (by simp)

theorem insertEach_missing_iff (ha : s.adapter.Serves P) {ds : List ρ} {db : σ}
    (hchecked : ∀ d ∈ ds, ∃ st, s.checked m type table key d = .ok st) :
    (∃ t c, (s.insertEach m type table key ds db).1 = .error (.missingPrimaryKey t c)) ↔
      s.LosesKeyAmong m type table key ds db := by
  rw [LosesKeyAmong, and_iff_right hchecked]
  induction ds generalizing db with
  | nil => simp [insertEach]
  | cons d ds ih =>
    obtain ⟨st, hst⟩ := hchecked d List.mem_cons_self
    have hone := @insertOne_missing_iff _ _ _ s m type table key P _ ha d db st hst
    have hrest := fun db₁ => @ih db₁ fun d hd => hchecked d (List.mem_cons_of_mem _ hd)
    rw [exists_behind_cons_iff]
    rcases hrun : (s.insertOne m type table key).exec (d, db) with ⟨r, d₁, db₁⟩
    rw [hrun] at hone
    cases r with
    | error e =>
      -- The rows behind a failed record are not sent.
      have hcons := fun ds => s.insertEach_cons_of_error m type table key hrun ds
      rw [hcons, hone]
      constructor
      · exact fun hlost => .inl ⟨[], db, rfl, hlost⟩
      · rintro (⟨before', db₂, heq, hlost⟩ | ⟨before, y, after, -, before', db₂, heq, -⟩)
        · cases heq
          exact hlost
        · rw [hcons] at heq
          exact absurd heq (by simp)
    | ok u =>
      have hkept : ¬ s.LosesKey m type table key d db := by
        rw [← hone]
        simp
      have hcons := fun ds => s.insertEach_cons_of_ok m type table key hrun ds
      rw [hcons, hrest]
      constructor
      · rintro ⟨before, y, after, hsplit, before', db₂, heq, hlost⟩
        exact .inr ⟨before, y, after, hsplit, d₁ :: before', db₂, by rw [hcons, heq], hlost⟩
      · rintro (⟨before', db₂, heq, hlost⟩ | ⟨before, y, after, hsplit, before', db₂, heq, hlost⟩)
        · cases heq
          exact absurd hlost hkept
        · rw [hcons] at heq
          rcases hbefore : s.insertEach m type table key before db₁ with ⟨r, rest, db₃⟩
          rw [hbefore] at heq
          cases heq
          exact ⟨before, y, after, hsplit, rest, db₃, hbefore, hlost⟩

end Session

/-! ## One insert -/

theorem exists_mapping_key_iff {m : Mapping} {key : List m.Index} {type : RecordType ρ}
    {table : Table} {s : Session σ η} {Q : (m : Mapping) → List m.Index → Prop}
    (hm : type.mapping = .ok m) (hkey : s.key m table = .ok key) :
    (∃ m key, type.mapping = .ok m ∧ s.key m table = .ok key ∧ Q m key) ↔ Q m key := by
  constructor
  · rintro ⟨m', key', hm', hkey', hQ⟩
    rw [hm] at hm'
    obtain rfl := Except.ok.inj hm'
    rw [hkey] at hkey'
    obtain rfl := Except.ok.inj hkey'
    exact hQ
  · exact fun hQ => ⟨m, key, hm, hkey, hQ⟩

namespace Session

variable (s)

variable [JsonLibrary]

/-- An error without a call, or a call without this error. -/
theorem missing_sent_insertOne_iff (ha : s.adapter.Serves P) (d : ρ) (db : σ)
    (calls : List Call) {r : Except Error Unit} {d' : ρ} {db' : σ} {calls' : List Call}
    (h : (s.traced.insertOne m type table key).exec (d, (db, calls)) = (r, (d', (db', calls')))) :
    (∃ t c, r = .error (.missingPrimaryKey t c)) ∧ calls' ≠ calls ↔
      s.LosesKey m type table key d db := by
  obtain ⟨more, hlogs, hmore⟩ := s.logs_insertOne m type table key d db calls
  rw [hlogs] at h
  cases h
  have hsent : calls ++ more ≠ calls ↔ more ≠ [] := by simp
  rw [hsent]
  cases hchecked : s.checked m type table key d with
  | error e =>
    rw [hmore.2 ⟨e, hchecked⟩]
    exact iff_of_false (by simp) (not_losesKey_of_refused hchecked)
  | ok st =>
    have hne : more ≠ [] := by
      rw [ne_eq, hmore, hchecked]
      simp
    rw [insertOne_missing_iff ha hchecked]
    exact and_iff_left hne

theorem missing_sent_insertEach_iff (ha : s.adapter.Serves P) {ds : List ρ} (hds : ds ≠ [])
    (hchecked : ∀ d ∈ ds, ∃ st, s.checked m type table key d = .ok st) (db : σ)
    (calls : List Call) {r : Except Error Unit} {ds' : List ρ} {db' : σ} {calls' : List Call}
    (h : s.traced.insertEach m type table key ds (db, calls) = (r, (ds', (db', calls')))) :
    (∃ t c, r = .error (.missingPrimaryKey t c)) ∧ calls' ≠ calls ↔
      s.LosesKeyAmong m type table key ds db := by
  obtain ⟨more, hlogs, hmore⟩ := s.logs_insertEach m type table key ds db calls
  rw [hlogs] at h
  cases h
  have hne : more ≠ [] := by
    intro hnil
    obtain ⟨d, rest, rfl⟩ := List.exists_cons_of_ne_nil hds
    obtain ⟨e, he⟩ := hmore hnil d rfl
    obtain ⟨st, hst⟩ := hchecked d List.mem_cons_self
    rw [he] at hst
    exact absurd hst (by simp)
  rw [insertEach_missing_iff ha hchecked]
  exact and_iff_left (by simpa using hne)

/-- Several records, where the driver reports the id of a row: all are checked before any is
sent. -/
theorem missing_sent_insertChecked_iff (ha : s.adapter.Serves P)
    (hmethod : s.dialect.insertMethod = .lastInsertId) {ds : List ρ} (hds : ds ≠ []) (db : σ)
    (calls : List Call) {r : Except Error Unit} {ds' : List ρ} {db' : σ} {calls' : List Call}
    (h : (match ds.forM (s.checkInsert m type table key) with
      | .error e => (.error e, (ds, (db, calls)))
      | .ok () => s.traced.insertEach m type table key ds (db, calls)) =
        (r, (ds', (db', calls')))) :
    (∃ t c, r = .error (.missingPrimaryKey t c)) ∧ calls' ≠ calls ↔
      s.LosesKeyAmong m type table key ds db := by
  cases hforM : ds.forM (s.checkInsert m type table key) with
  | error e =>
    rw [hforM] at h
    cases h
    refine iff_of_false (by simp) ?_
    rintro ⟨hchecked, -⟩
    rw [← forM_checkInsert_eq_ok_iff hmethod, hforM] at hchecked
    exact absurd hchecked (by simp)
  | ok u =>
    rw [hforM] at h
    exact s.missing_sent_insertEach_iff ha hds ((forM_checkInsert_eq_ok_iff hmethod).1 hforM)
      db calls h

/-- Several records, where one statement returns what the database assigned. -/
theorem missing_sent_insertMany_iff (ha : s.adapter.Serves P)
    (hmethod : ¬ s.dialect.insertMethod = .lastInsertId) {ds : List ρ} (db : σ)
    (calls : List Call) {r : Except Error Unit} {ds' : List ρ} {db' : σ} {calls' : List Call}
    (h : (match InsertStatement.ofRecords m type s.dialect table key ds with
      | .error e => (.error e, (ds, (db, calls)))
      | .ok st => (s.traced.sendMany m type st).exec (ds, (db, calls))) =
        (r, (ds', (db', calls')))) :
    (∃ t c, r = .error (.missingPrimaryKey t c)) ∧ calls' ≠ calls ↔
      s.LosesKeyAmong m type table key ds db := by
  refine iff_of_false ?_ ?_
  · rintro ⟨⟨t, c, rfl⟩, hcalls⟩
    cases hst : InsertStatement.ofRecords m type s.dialect table key ds with
    | error e =>
      rw [hst] at h
      cases h
      exact hcalls rfl
    | ok st =>
      rw [hst] at h
      dsimp only at h
      obtain ⟨call, hlogs⟩ := s.logs_sendMany m type st ds db calls
      rw [hlogs] at h
      rcases hsend : (s.sendMany m type st).exec (ds, db) with ⟨r, after⟩
      rw [hsend] at h
      cases h
      exact (reported_of_sendMany ha hsend).ne_missingPrimaryKey t c rfl
  · rintro ⟨-, before, d, after, -, before', db₁, -, hlast, -⟩
    exact hmethod hlast

/-! ## Both inserts -/

theorem missing_sent_insert_iff (ha : s.adapter.Serves P) (d : ρ) (db : σ) (calls : List Call)
    {r : Except Error Unit} {d' : ρ} {db' : σ} {calls' : List Call}
    (h : (s.traced.insert type table).exec (d, (db, calls)) = (r, (d', (db', calls')))) :
    (∃ t c, r = .error (.missingPrimaryKey t c)) ∧ calls' ≠ calls ↔
      ∃ m key, type.mapping = .ok m ∧ s.key m table = .ok key ∧
        s.LosesKey m type table key d db := by
  rw [exec_insert] at h
  cases hm : type.mapping with
  | error e =>
    rw [hm] at h
    cases h
    simp
  | ok m =>
    rw [hm] at h
    dsimp only at h
    rw [key_traced] at h
    cases hkey : s.key m table with
    | error e =>
      rw [hkey] at h
      cases h
      simp [hkey]
    | ok key =>
      rw [hkey] at h
      rw [← hm, exists_mapping_key_iff hm hkey]
      exact s.missing_sent_insertOne_iff ha d db calls h

theorem missing_sent_insertAll_iff (ha : s.adapter.Serves P) (ds : List ρ) (db : σ)
    (calls : List Call) {r : Except Error Unit} {ds' : List ρ} {db' : σ} {calls' : List Call}
    (h : (s.traced.insertAll type table).exec (ds, (db, calls)) = (r, (ds', (db', calls')))) :
    (∃ t c, r = .error (.missingPrimaryKey t c)) ∧ calls' ≠ calls ↔
      ∃ m key, type.mapping = .ok m ∧ s.key m table = .ok key ∧
        s.LosesKeyAmong m type table key ds db := by
  rw [exec_insertAll] at h
  by_cases hds : ds = []
  · rw [if_pos hds] at h
    cases h
    refine iff_of_false (by simp) ?_
    rintro ⟨m, key, -, -, hlost⟩
    rw [hds] at hlost
    exact not_losesKeyAmong_nil hlost
  · rw [if_neg hds] at h
    cases hm : type.mapping with
    | error e =>
      rw [hm] at h
      cases h
      simp
    | ok m =>
      rw [hm] at h
      dsimp only at h
      rw [key_traced] at h
      cases hkey : s.key m table with
      | error e =>
        rw [hkey] at h
        cases h
        simp [hkey]
      | ok key =>
        rw [hkey] at h
        rw [← hm, exists_mapping_key_iff hm hkey]
        by_cases hmethod : s.dialect.insertMethod = .lastInsertId
        · have hrun := (if_pos hmethod).symm.trans h
          exact s.missing_sent_insertChecked_iff ha hmethod hds db calls hrun
        · have hrun := (if_neg hmethod).symm.trans h
          exact s.missing_sent_insertMany_iff ha hmethod db calls hrun

end Session

/-! ## Main result -/

/-- **When a missing key is told of after a call.**  An insert has sent its statement, and fails
with a missing key all the same, exactly if it loses the key that the driver was to report; and an
insert of several records exactly if one of them does. -/
theorem missingPrimaryKey_sent_iff [JsonLibrary] (type : RecordType ρ) (table : Table) (s : Session σ η)
    (ha : s.adapter.Serves fun _ => True) :
    (∀ d db calls r d' db' calls',
      (s.traced.insert type table).exec (d, (db, calls)) = (r, (d', (db', calls'))) →
      ((∃ t c, r = .error (.missingPrimaryKey t c)) ∧ calls' ≠ calls ↔
        ∃ m key, type.mapping = .ok m ∧ s.key m table = .ok key ∧
          s.LosesKey m type table key d db)) ∧
    (∀ ds db calls r ds' db' calls',
      (s.traced.insertAll type table).exec (ds, (db, calls)) = (r, (ds', (db', calls'))) →
      ((∃ t c, r = .error (.missingPrimaryKey t c)) ∧ calls' ≠ calls ↔
        ∃ m key, type.mapping = .ok m ∧ s.key m table = .ok key ∧
          s.LosesKeyAmong m type table key ds db)) :=
  ⟨fun d db calls _ _ _ _ h => s.missing_sent_insert_iff ha d db calls h,
    fun ds db calls _ _ _ _ h => s.missing_sent_insertAll_iff ha ds db calls h⟩

/-! ## A silent driver -/

namespace Rehearsal

/-- A session whose driver reports no ids. -/
def silentSession : Session Script Unit := ⟨Script.adapter "sqlite3", (), .sqlite, "id"⟩

/-- The insert of such a record. -/
def draftInsert : Call := .execute "INSERT INTO t (\x22name\x22) VALUES (?)" [.text "x"]

theorem exec_insert_draft :
    (silentSession.traced.insert (draftShape.recordType "Draft") ⟨"t", []⟩).exec (draft, ({}, [])) =
      (.error (.missingPrimaryKey "t" "id"),
        (draft, ({ calls := [draftInsert] }, [draftInsert]))) := by
  rfl

theorem missingPrimaryKey_sent_draft :
    silentSession.adapter.Serves (fun _ => True) ∧
      ∃ m key, (draftShape.recordType "Draft").mapping = .ok m ∧
        silentSession.key m ⟨"t", []⟩ = .ok key ∧
        silentSession.LosesKey m (draftShape.recordType "Draft") ⟨"t", []⟩ key draft {} := by
  have ha : silentSession.adapter.Serves fun _ => True := Script.serves "sqlite3"
  refine ⟨ha, ?_⟩
  have hinsert := missingPrimaryKey_sent_iff (draftShape.recordType "Draft") ⟨"t", []⟩ _ ha
  exact (hinsert.1 _ _ _ _ _ _ _ exec_insert_draft).1 ⟨⟨_, _, rfl⟩, by simp⟩

/-- A missing key does not mean that nothing was written. -/
theorem missingPrimaryKey_written :
    ¬ ∀ (s : Session Script Unit), s.adapter.Serves (fun _ => True) →
      ∀ (type : RecordType draftShape.Data) table d db r d' db' calls',
        (s.traced.insert type table).exec (d, (db, [])) = (r, (d', (db', calls'))) →
        (∃ t c, r = .error (.missingPrimaryKey t c)) → draftInsert ∉ calls' := by
  intro h
  have ha : silentSession.adapter.Serves fun _ => True := Script.serves "sqlite3"
  have hcalls := h _ ha _ _ _ _ _ _ _ _ exec_insert_draft ⟨_, _, rfl⟩
  exact absurd List.mem_cons_self hcalls

end Rehearsal
end TableRecords
