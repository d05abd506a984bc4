import TableRecords.Proofs.Session.Assigned
import TableRecords.Session.Write

/-!
# Deleting a record or its key

A record is deleted by the columns of its key.  One way looks the columns up in the mapping and reads
their values from the record; the other takes the names from the table and the values from the
caller.  Where the names are those of mapped columns, both look at the same values in the same order
and build the same statement, or find the same value missing:

    Statement.delete … = Statement.deleteByColumns … values            (delete_eq_deleteByColumns)
    (s.delete type table d).exec = (s.deleteByKey table values).exec         (delete_as_deleteByKey)
-/

namespace TableRecords

open Rehearsal (Call)

variable {σ η ρ : Type}

/-! ## Keys by name -/

/-- The columns that a delete by key compares. -/
def Table.keyColumns (table : Table) (defaultIdColumn : String) : List String :=
  if table.idColumns.isEmpty then [defaultIdColumn] else table.idColumns

/-- The columns of the key are spelled as mapped columns: the id columns of the table, or else the
default id column, with no field tagged as primary key. -/
def Mapping.NamesKey (m : Mapping) (table : Table) (defaultIdColumn : String) : Prop :=
  (table.idColumns ≠ [] ∧ ∀ c ∈ table.idColumns, c ∈ m.columns) ∨
    (table.idColumns = [] ∧ m.primaryKey = [] ∧ defaultIdColumn ∈ m.columns)

namespace Mapping

variable {m : Mapping} {type : RecordType ρ} {table : Table} {defaultIdColumn : String}

theorem idColumn_column (hm : type.mapping = .ok m) (table : Table) (i : m.Index) :
    m.idColumn table (m.field i).column = .ok i := by
  rw [idColumn, indexOf?_column hm i]

/-- As many columns are compared as there are values at the places of a key. -/
theorem length_columnsAt {is : List m.Index} {record : ρ} {values : List Value}
    (h : is.map (m.valueOf type record) = values.map .ok) :
    (m.columnsAt is).length = values.length := by
  simpa [columnsAt] using congrArg List.length h

theorem assigned_of_map {is : List m.Index} {record : ρ} {values : List Value}
    (h : is.map (m.valueOf type record) = values.map .ok) (hnonzero : ∀ v ∈ values, ¬ v.IsZero) :
    ∀ i ∈ is, m.Assigned type record i := by
  intro i hi
  have hmem : m.valueOf type record i ∈ values.map Except.ok := h ▸ List.mem_map_of_mem hi
  obtain ⟨v, hv, hvalue⟩ := List.mem_map.1 hmem
  exact ⟨v, hvalue.symm, hnonzero v hv⟩

/-- The key has the columns by which it is named. -/
theorem exists_key_of_namesKey (hm : type.mapping = .ok m) (h : m.NamesKey table defaultIdColumn) :
    ∃ key, m.keyOf table defaultIdColumn = .ok key ∧
      m.columnsAt key = table.keyColumns defaultIdColumn ∧ key ≠ [] := by
  rcases h with ⟨hne, hmapped⟩ | ⟨hnil, htagged, hmapped⟩
  · obtain ⟨key, hkey⟩ := exists_columnsAt hmapped
    have hempty : table.idColumns.isEmpty = false := by simpa using hne
    refine ⟨key, ?_, ?_, ?_⟩
    · have hfound : table.idColumns.map (m.idColumn table) = key.map .ok := by
        rw [← hkey, columnsAt, List.map_map]
        exact List.map_congr_left fun i _ => idColumn_column hm table i
      rw [keyOf, hempty]
      exact mapM_eq_ok_iff.2 hfound
    · rw [hkey, Table.keyColumns, hempty]
      rfl
    · rintro rfl
      exact hne hkey.symm
  · obtain ⟨i, hi⟩ := mem_columns_iff.1 hmapped
    refine ⟨[i], ?_, ?_, List.cons_ne_nil i []⟩
    · rw [keyOf, hnil, htagged, ← hi, indexOf?_column hm i]
      rfl
    · rw [Table.keyColumns, hnil, ← hi]
      rfl

end Mapping

/-! ## One statement -/

/-- All values are assigned, or one is the first that is not. -/
theorem Value.assigned_or_first_zero (values : List Value) :
    (∀ v ∈ values, ¬ v.IsZero) ∨ ∃ before v after, values = before ++ v :: after ∧
      (∀ w ∈ before, ¬ w.IsZero) ∧ v.IsZero := by
  induction values with
  | nil => exact .inl fun _ h => absurd h List.not_mem_nil
  | cons v values ih =>
    by_cases hv : v.IsZero
    · exact .inr ⟨[], v, values, rfl, fun _ h => absurd h List.not_mem_nil, hv⟩
    · rcases ih with hall | ⟨before, w, after, rfl, hbefore, hw⟩
      · exact .inl (List.forall_mem_cons.2 ⟨hv, hall⟩)
      · exact .inr ⟨v :: before, w, after, rfl, List.forall_mem_cons.2 ⟨hv, hbefore⟩, hw⟩

namespace Statement

variable {columns : List String} {values : List Value}

/-- The delete of the rows whose columns have some values. -/
def deleteOf (d : Dialect) (table : Table) (columns : List String) (values : List Value) :
    Statement where
  kind := .delete
  table := table.name
  columns := columns
  filter := none
  sql := Sql.render d (deleteFragments table.name columns)
  args := values

theorem deleteByColumns_of_assigned (d : Dialect) (table : Table) (hne : columns ≠ [])
    (hlength : columns.length = values.length) (h : ∀ v ∈ values, ¬ v.IsZero) :
    deleteByColumns d table columns values = .ok (deleteOf d table columns values) := by
  have hfind : (columns.zip values).find? (·.2.isZero) = none := by
    rw [List.find?_eq_none]
    rintro ⟨c, v⟩ hmem hzero
    exact h v (List.of_mem_zip hmem).2 (v.isZero_iff.1 hzero)
  rw [deleteByColumns, if_neg (by simp [hne, hlength]), hfind]
  rfl

/-- The first value that is zero is told of under its column. -/
theorem deleteByColumns_of_zero (d : Dialect) (table : Table) {before after : List String}
    {c : String} {valuesBefore valuesAfter : List Value} {v : Value}
    (hlength : before.length = valuesBefore.length) (hrest : after.length = valuesAfter.length)
    (hbefore : ∀ w ∈ valuesBefore, ¬ w.IsZero) (hv : v.IsZero) :
    deleteByColumns d table (before ++ c :: after) (valuesBefore ++ v :: valuesAfter) =
      .error (.missingPrimaryKey table.name c) := by
  have hnone : (before.zip valuesBefore).find? (·.2.isZero) = none := by
    rw [List.find?_eq_none]
    rintro ⟨c', w⟩ hmem hzero
    exact hbefore w (List.of_mem_zip hmem).2 (w.isZero_iff.1 hzero)
  have hfind : ((before ++ c :: after).zip (valuesBefore ++ v :: valuesAfter)).find? (·.2.isZero) =
      some (c, v) := by
    rw [List.zip_append hlength, List.find?_append, hnone, List.zip_cons_cons, Option.none_or]
    exact List.find?_cons_of_pos (v.isZero_iff.2 hv)
  rw [deleteByColumns, if_neg (by simp [hlength, hrest]), hfind]

/-- **The key of a record makes the statement that its values make by name.** -/
theorem delete_eq_deleteByColumns (d : Dialect) (table : Table) {m : Mapping}
    {type : RecordType ρ} {key : List m.Index} {record : ρ} (hkey : key ≠ [])
    (hvalues : key.map (m.valueOf type record) = values.map .ok) :
    delete m type d table key record = deleteByColumns d table (m.columnsAt key) values := by
  rcases Value.assigned_or_first_zero values with hall | ⟨before, v, after, rfl, hbefore, hv⟩
  · have hread : m.keyValues type table key record = .ok values :=
      Mapping.keyValues_eq_ok_iff.2 ⟨⟨hkey, Mapping.assigned_of_map hvalues hall⟩, hvalues⟩
    rw [delete, hread]
    rfl
  · rw [List.map_append, List.map_cons] at hvalues
    obtain ⟨keyBefore, rest, rfl, hkeyBefore, hrest⟩ := List.map_eq_append_iff.1 hvalues
    obtain ⟨i, keyAfter, rfl, hi, hkeyAfter⟩ := List.map_eq_cons_iff.1 hrest
    have hread : m.keyValues type table (keyBefore ++ i :: keyAfter) record =
        .error (.missingPrimaryKey table.name (m.field i).column) :=
      Mapping.keyValues_eq_error_iff.2 (.zero rfl (Mapping.assigned_of_map hkeyBefore hbefore) hi hv)
    have hrefused := deleteByColumns_of_zero d table (c := (m.field i).column)
      (Mapping.length_columnsAt hkeyBefore) (Mapping.length_columnsAt hkeyAfter) hbefore hv
    rw [delete, hread, Mapping.columnsAt, List.map_append, List.map_cons]
    exact hrefused.symm

end Statement

namespace Session

variable {s : Session σ η} {m : Mapping} {type : RecordType ρ} {table : Table} {key : List m.Index}
  {values : List Value}

/-- Both operations send what was built, and fail alike if it meets no row. -/
theorem exec_delete_eq_deleteByKey (hm : type.mapping = .ok m) (hkey : s.key m table = .ok key)
    (hcolumns : m.columnsAt key = table.keyColumns s.defaultIdColumn) (hne : key ≠ []) {d : ρ}
    (hvalues : key.map (m.valueOf type d) = values.map .ok) (db : σ) :
    (s.delete type table d).exec db = (s.deleteByKey table values).exec db := by
  have hst := Statement.delete_eq_deleteByColumns s.dialect table hne hvalues
  rw [delete, hm, Action.exec_bind_ok (Action.exec_liftM _ _), hkey,
    Action.exec_bind_ok (Action.exec_liftM _ _), hst, hcolumns]
  rfl

theorem exec_executeOnRow_traced (s : Session σ η) (st : Statement) (context : String) (db : σ)
    (calls : List Call) :
    (s.traced.executeOnRow st context).exec (db, calls) =
      match (s.execute st).exec db with
      | (.error e, db') => (.error e, (db', calls ++ [.execute st.sql st.args]))
      | (.ok result, db') =>
        (if result.rowsAffected = 0 then .error (.notFound context) else .ok (),
          (db', calls ++ [.execute st.sql st.args])) := by
  rw [executeOnRow, Action.exec_bind, exec_execute_traced]
  rcases (s.execute st).exec db with ⟨e | result, db'⟩
  · rfl
  · dsimp only
    split <;> rfl

theorem exec_deleteByKey_of_error {e : Error}
    (h : Statement.deleteByColumns s.dialect table (table.keyColumns s.defaultIdColumn) values =
      .error e) (db : σ) : (s.deleteByKey table values).exec db = (.error e, db) := by
  rw [deleteByKey]
  exact Action.exec_bind_error ((Action.exec_liftM _ _).trans (by rw [← h]; rfl))

theorem exec_deleteByKey_of_ok {st : Statement}
    (h : Statement.deleteByColumns s.dialect table (table.keyColumns s.defaultIdColumn) values =
      .ok st) (db : σ) :
    (s.deleteByKey table values).exec db =
      (s.executeOnRow st s!"no row in {table.name} matches the key").exec db := by
  rw [deleteByKey]
  exact Action.exec_bind_ok ((Action.exec_liftM _ _).trans (by rw [← h]; rfl))

end Session

/-! ## Main result -/

/-- **A record is deleted as its key values are.**  Where a table names its key by mapped columns, the
key has these columns, and deleting a record with the values of its key in key order cannot be told
from deleting by these values.  The first of them that is zero is missing, and nothing is sent; if
none is, then one statement with these values is sent, and it has to meet a row. -/
theorem delete_as_deleteByKey (type : RecordType ρ) (table : Table) (s : Session σ η) {m : Mapping}
    (hm : type.mapping = .ok m) (hnamed : m.NamesKey table s.defaultIdColumn) (db : σ)
    (calls : List Call) :
    ∃ key, s.key m table = .ok key ∧ m.columnsAt key = table.keyColumns s.defaultIdColumn ∧
      ∀ (d : ρ) (values : List Value), key.map (m.valueOf type d) = values.map .ok →
        let run := (s.traced.delete type table d).exec (db, calls)
        let st := Statement.deleteOf s.dialect table (m.columnsAt key) values
        run = (s.traced.deleteByKey table values).exec (db, calls) ∧
        (∀ before i after v, key = before ++ i :: after →
          (∀ j ∈ before, m.Assigned type d j) → m.valueOf type d i = .ok v → v.IsZero →
            run = (.error (.missingPrimaryKey table.name (m.field i).column), (db, calls))) ∧
        ((∀ v ∈ values, ¬ v.IsZero) →
          run = match (s.execute st).exec db with
            | (.error e, db') => (.error e, (db', calls ++ [.execute st.sql values]))
            | (.ok result, db') =>
              (if result.rowsAffected = 0 then
                .error (.notFound s!"no row in {table.name} matches the key") else .ok (),
                (db', calls ++ [.execute st.sql values]))) := by
  obtain ⟨key, hkey, hcolumns, hne⟩ := Mapping.exists_key_of_namesKey hm hnamed
  refine ⟨key, hkey, hcolumns, fun d values hvalues => ?_⟩
  have hsame : (s.traced.delete type table d).exec (db, calls) =
      (s.traced.deleteByKey table values).exec (db, calls) :=
    Session.exec_delete_eq_deleteByKey (s := s.traced) hm hkey hcolumns hne hvalues (db, calls)
  have hst := Statement.delete_eq_deleteByColumns s.dialect table hne hvalues
  rw [hcolumns] at hst
  refine ⟨hsame, fun before i after v hsplit hbefore hi hzero => ?_, fun hassigned => ?_⟩
  · have hread : m.keyValues type table key d = .error _ :=
      Mapping.keyValues_eq_error_iff.2 (.zero hsplit hbefore hi hzero)
    rw [hsame]
    refine Session.exec_deleteByKey_of_error (s := s.traced) (hst.symm.trans ?_) (db, calls)
    rw [Statement.delete, hread]
    rfl
  · have hcolumnsNe : m.columnsAt key ≠ [] := by simpa [Mapping.columnsAt] using hne
    have hbuilt := Statement.deleteByColumns_of_assigned s.dialect table hcolumnsNe
      (Mapping.length_columnsAt hvalues) hassigned
    rw [hcolumns] at hbuilt
    rw [hsame, Session.exec_deleteByKey_of_ok (s := s.traced) hbuilt,
      Session.exec_executeOnRow_traced, hcolumns]
    rfl

/-! ## A note with two key columns -/

/-- A note is deleted by its code and its id, in the order of the table. -/
theorem delete_as_deleteByKey_note :
    (noteMapping.NamesKey ⟨"notes", ["code", "id"]⟩ "id" ∧
      (noteSession.traced.delete noteType ⟨"notes", ["code", "id"]⟩ (noteOf 7 "a" "" "")).exec
          ((), []) =
        (.ok (), ((), [.execute "DELETE FROM notes WHERE \x22code\x22 = ? AND \x22id\x22 = ?"
          [.text "a", .integer 7]]))) ∧
    (noteSession.traced.delete noteType ⟨"notes", ["code", "id"]⟩ (noteOf 7 "a" "" "")).exec
        ((), []) =
      (noteSession.traced.deleteByKey ⟨"notes", ["code", "id"]⟩ [.text "a", .integer 7]).exec
        ((), []) ∧
    (noteSession.traced.delete noteType ⟨"notes", ["code", "id"]⟩ (noteOf 0 "a" "" "")).exec
        ((), []) =
      (.error (.missingPrimaryKey "notes" "id"), ((), [])) := by
  have hnamed : noteMapping.NamesKey ⟨"notes", ["code", "id"]⟩ "id" := .inl (by decide)
  obtain ⟨key, hkey, -, hdelete⟩ := delete_as_deleteByKey noteType ⟨"notes", ["code", "id"]⟩
    noteSession mapping_noteType hnamed () []
  have hfound : noteSession.key noteMapping ⟨"notes", ["code", "id"]⟩ =
      .ok [⟨1, by decide⟩, noteKey] := by rfl
  obtain rfl := Except.ok.inj (hkey.symm.trans hfound)
  have hseven := hdelete (noteOf 7 "a" "" "") [.text "a", .integer 7] rfl
  have hzero := hdelete (noteOf 0 "a" "" "") [.text "a", .integer 0] rfl
  refine ⟨⟨hnamed, by rfl⟩, hseven.1, ?_⟩
  refine hzero.2.1 [⟨1, by decide⟩] noteKey [] (.integer 0) rfl (fun j hj => ?_) rfl .integer
  obtain rfl := List.mem_singleton.1 hj
  exact ⟨.text "a", rfl, by rw [← Value.isZero_iff]; decide⟩

end TableRecords
