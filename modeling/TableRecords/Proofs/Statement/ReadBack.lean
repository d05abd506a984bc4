import TableRecords.Proofs.Mapping.Columns
import TableRecords.Proofs.Sql.Statements
import TableRecords.Proofs.Statement.Key

/-!
# Statements say what they were built from

A statement of the library is read back from its text by `Sql.readStatement`, which knows only how
the dialect quotes names and writes placeholders.  It finds the table and the columns as the mapping
has them, and the arguments stand for its placeholders in order:

    statements_readBack : inserts of one and of several records, updates, deletes, reads by key
-/

namespace TableRecords

open Sql

/-! ## What a reader finds -/

/-- What a placeholder stands for: the value of its column in its row of some records. -/
def Sql.Slot.valueIn {ρ : Type} (m : Mapping) (type : RecordType ρ) (records : List ρ)
    (s : Slot) : Option (Except Error Value) := do
  let record ← records[s.row]?
  let i ← m.indexOf? s.column
  return m.valueOf type record i

/-- A reader of the text of a statement finds what it does to which columns, and its placeholders:
they have the numbers of the arguments in order, and each has the argument that it stands for. -/
def Statement.ReadsAs (d : Dialect) (st : Statement) (kind : StatementKind) (table : String)
    (columns keyColumns returned : List String)
    (value : Slot → Option (Except Error Value)) : Prop :=
  ∃ slots, readStatement d st.sql = some ⟨kind, table, columns, keyColumns, returned, slots⟩ ∧
    slots.map (·.number) = (List.range' 1 st.args.length).map d.number? ∧
    slots.map value = st.args.map fun v => some (.ok v)

/-- An insert of records is read back. -/
def InsertStatement.ReadsBack {ρ : Type} {m : Mapping} (type : RecordType ρ) (d : Dialect)
    (table : Table) (records : List ρ) (st : InsertStatement m) : Prop :=
  ∃ written : List m.Index, written.Sublist m.indexes ∧ st.columns = m.columnsAt written ∧
    st.toStatement.ReadsAs d .insert table.name (m.columnsAt written) []
      (if d.insertMethod = .lastInsertId then [] else m.columnsAt st.readBack)
      (·.valueIn m type records)

/-! ## Values of fields -/

variable {ρ : Type} {m : Mapping} {type : RecordType ρ}

theorem Statement.written_assignments {key : List m.Index} {skipNulls : Bool} {record : ρ}
    {is : List m.Index} {written : List (m.Index × Value)}
    (h : assignments m type key skipNulls record is = .ok written) :
    (written.map (·.1)).Sublist is ∧
      (written.map (·.1)).map (m.valueOf type record) = written.map fun p => .ok p.2 := by
  induction is generalizing written with
  | nil =>
    obtain rfl := Except.ok.inj h
    exact ⟨List.Sublist.refl [], rfl⟩
  | cons i is ih =>
    rw [assignments] at h
    split at h
    · exact ⟨(ih h).1.cons i, (ih h).2⟩
    · obtain ⟨v, hv, h⟩ := bind_eq_ok_iff.1 h
      obtain ⟨more, hmore, h⟩ := bind_eq_ok_iff.1 h
      obtain rfl := Except.ok.inj h
      split
      · exact ⟨(ih hmore).1.cons i, (ih hmore).2⟩
      · refine ⟨(ih hmore).1.cons_cons i, ?_⟩
        rw [List.map_cons, List.map_cons, hv, (ih hmore).2]
        rfl

/-! ## The placeholders of a statement -/

/-- The numbers of the placeholders follow from how many there are. -/
theorem Statement.readsAs_of_slots {d : Dialect} {st : Statement} {kind : StatementKind}
    {table : String} {columns keyColumns returned cs : List String} {rows : Nat}
    {value : Slot → Option (Except Error Value)}
    (hread : readStatement d st.sql =
      some ⟨kind, table, columns, keyColumns, returned, rowsSlots d cs 0 rows⟩)
    (hvalues : (rowsSlots d cs 0 rows).map value = st.args.map fun v => some (.ok v)) :
    st.ReadsAs d kind table columns keyColumns returned value := by
  have hnumbers := map_number_rowsSlots d cs 0 rows
  have hcount : rows * cs.length = st.args.length := by
    have hslots := congrArg List.length hnumbers
    have hargs := congrArg List.length hvalues
    simp only [List.length_map, List.length_range'] at hslots hargs
    omega
  rw [Nat.zero_mul, Nat.add_zero, hcount] at hnumbers
  exact ⟨_, hread, hnumbers, hvalues⟩

theorem flatMap_range_getElem? {α β : Type} (f : Option α → List β) (xs : List α) :
    ((List.range xs.length).flatMap fun r => f xs[r]?) = xs.flatMap fun x => f (some x) := by
  induction xs with
  | nil => rfl
  | cons x xs ih =>
    rw [List.length_cons, List.range_succ_eq_map, List.flatMap_cons, List.flatMap_map,
      List.flatMap_cons, ← ih]
    rfl

/-- Placeholders stand for the values of the fields whose columns they are for. -/
theorem map_valueIn_rowsSlots (hm : type.mapping = .ok m) (d : Dialect) (records : List ρ)
    (is : List m.Index) :
    (rowsSlots d (m.columnsAt is) 0 records.length).map (·.valueIn m type records) =
      records.flatMap fun record => (is.map (m.valueOf type record)).map some := by
  have hcolumn : ∀ record i, ((m.indexOf? (m.field i).column).bind fun i =>
      some (m.valueOf type record i)) = some (m.valueOf type record i) := by
    intro record i
    rw [indexOf?_column hm i, Option.bind_some]
  calc (rowsSlots d (m.columnsAt is) 0 records.length).map (·.valueIn m type records)
      = ((rowsSlots d (m.columnsAt is) 0 records.length).map fun s => (s.row, s.column)).map
          (fun p => (⟨p.1, p.2, none⟩ : Slot).valueIn m type records) := by
        rw [List.map_map]
        rfl
    _ = (List.range records.length).flatMap fun r => (m.columnsAt is).map
          fun c => (⟨r, c, none⟩ : Slot).valueIn m type records := by
        rw [map_place_rowsSlots, List.map_flatMap, List.range_eq_range']
        simp only [List.map_map, Function.comp_def]
    _ = records.flatMap fun record => (m.columnsAt is).map
          fun c => (m.indexOf? c).bind fun i => some (m.valueOf type record i) :=
        flatMap_range_getElem? (fun record => (m.columnsAt is).map
          fun c => record.bind fun record => (m.indexOf? c).bind fun i =>
            some (m.valueOf type record i)) records
    _ = records.flatMap fun record => (is.map (m.valueOf type record)).map some := by
        simp only [Mapping.columnsAt, List.map_map, Function.comp_def, hcolumn]

theorem map_valueIn_of_values (hm : type.mapping = .ok m) (d : Dialect) {record : ρ}
    {is : List m.Index} {vs : List Value}
    (h : is.map (m.valueOf type record) = vs.map .ok) :
    (rowsSlots d (m.columnsAt is) 0 1).map (·.valueIn m type [record]) =
      vs.map fun v => some (.ok v) := by
  have hslots := map_valueIn_rowsSlots hm d [record] is
  rw [List.flatMap_cons, List.flatMap_nil, List.append_nil, h, List.map_map] at hslots
  exact hslots

/-! ## Inserts -/

variable {d : Dialect} {table : Table} {key : List m.Index}

/-- The arguments of an insert are the values of its records, row by row. -/
theorem flatMap_written {records : List ρ} {plans : List (InsertPlan m)} {is : List m.Index}
    (hplans : records.map (InsertPlan.ofRecord m type key) = plans.map .ok)
    (hcolumns : ∀ plan ∈ plans, plan.columns = is) :
    (records.flatMap fun record => (is.map (m.valueOf type record)).map some) =
      (plans.flatMap fun plan => plan.written.map (·.2)).map fun v => some (.ok v) := by
  induction records generalizing plans with
  | nil =>
    rw [List.map_eq_nil_iff.1 hplans.symm]
    rfl
  | cons record records ih =>
    cases plans with
    | nil => exact absurd hplans (by simp)
    | cons plan plans =>
      rw [List.map_cons, List.map_cons, List.cons.injEq] at hplans
      have hplan := (InsertPlan.sublist_of_eq_ok hplans.1).2.2
      rw [hcolumns plan List.mem_cons_self] at hplan
      rw [List.flatMap_cons, List.flatMap_cons, List.map_append, hplan,
        ih hplans.2 fun p hp => hcolumns p (List.mem_cons_of_mem _ hp)]
      simp only [List.map_map, Function.comp_def]

theorem readsBack_ofPlans (hm : type.mapping = .ok m) (htable : IsTableName table.name)
    {records : List ρ} {first : InsertPlan m} {rest : List (InsertPlan m)}
    (hplans : records.map (InsertPlan.ofRecord m type key) = (first :: rest).map .ok)
    (hwritten : first.written ≠ []) (hrest : ∀ plan ∈ rest, plan.columns = first.columns) :
    (InsertStatement.ofPlans d table first (first :: rest)).ReadsBack type d table records := by
  have hlength : records.length = (first :: rest).length := by
    have := congrArg List.length hplans
    rwa [List.length_map, List.length_map] at this
  have hsublist : first.columns.Sublist m.indexes := by
    cases records with
    | nil => exact absurd hplans (by simp)
    | cons record records =>
      rw [List.map_cons, List.map_cons, List.cons.injEq] at hplans
      exact (InsertPlan.sublist_of_eq_ok hplans.1).1
  have hcolumns : ∀ plan ∈ first :: rest, plan.columns = first.columns := by
    intro plan hplan
    rcases List.mem_cons.1 hplan with rfl | hplan
    · rfl
    · exact hrest plan hplan
  have hne : m.columnsAt first.columns ≠ [] := by
    simpa [Mapping.columnsAt, InsertPlan.columns] using hwritten
  have hrows : records.length ≠ 0 := by simp [hlength]
  have hread := read_insert d htable hne hrows (m.columnsAt first.readBack)
  rw [hlength] at hread
  refine ⟨first.columns, hsublist, rfl, Statement.readsAs_of_slots hread ?_⟩
  rw [← hlength, map_valueIn_rowsSlots hm, flatMap_written hplans hcolumns]
  rfl

theorem readsBack_ofRecord (hm : type.mapping = .ok m) (htable : IsTableName table.name)
    {record : ρ} {st : InsertStatement m}
    (h : InsertStatement.ofRecord m type d table key record = .ok st) :
    st.ReadsBack type d table [record] := by
  obtain ⟨plan, hplan, hwritten, rfl⟩ := InsertStatement.ofRecord_eq_ok_iff.1 h
  have hplans : [record].map (InsertPlan.ofRecord m type key) = [plan].map .ok := by
    rw [List.map_singleton, hplan, List.map_singleton]
  exact readsBack_ofPlans hm htable hplans hwritten fun p hp => absurd hp List.not_mem_nil

theorem readsBack_ofRecords (hm : type.mapping = .ok m) (htable : IsTableName table.name)
    {records : List ρ} {st : InsertStatement m}
    (h : InsertStatement.ofRecords m type d table key records = .ok st) :
    st.ReadsBack type d table records := by
  obtain ⟨first, rest, hplans, hwritten, hrest, rfl⟩ := InsertStatement.ofRecords_eq_ok_iff.1 h
  exact readsBack_ofPlans hm htable hplans hwritten hrest

/-! ## Statements about one row -/

theorem readsBack_update (hm : type.mapping = .ok m) (htable : IsTableName table.name)
    {skipNulls : Bool} {record : ρ} {st : Statement}
    (h : Statement.update m type d table key skipNulls record = .ok st) :
    ∃ assigned : List m.Index, assigned.Sublist m.indexes ∧ st.columns = m.columnsAt assigned ∧
      st.ReadsAs d .update table.name (m.columnsAt assigned) (m.columnsAt key) []
        (·.valueIn m type [record]) := by
  obtain ⟨keyArgs, hkey, h⟩ := bind_eq_ok_iff.1 h
  obtain ⟨written, hwritten, h⟩ := bind_eq_ok_iff.1 h
  obtain ⟨hsublist, hvalues⟩ := Statement.written_assignments hwritten
  obtain ⟨⟨hkeyNe, -⟩, hkeyValues⟩ := Mapping.keyValues_eq_ok_iff.1 hkey
  dsimp only at h
  split at h
  · exact absurd h (by simp [throw, throwThe, MonadExceptOf.throw, bind, Except.bind])
  · next hne =>
    obtain rfl := Except.ok.inj h
    have hcolumns : m.columnsAt (written.map (·.1)) ≠ [] := by simpa using hne
    have hkeyColumns : m.columnsAt key ≠ [] := by simpa [Mapping.columnsAt] using hkeyNe
    have hargs : (written.map (·.1) ++ key).map (m.valueOf type record) =
        (written.map (·.2) ++ keyArgs).map .ok := by
      rw [List.map_append, List.map_append, hvalues, hkeyValues, List.map_map]
      rfl
    have hslots := map_valueIn_of_values hm d hargs
    rw [Mapping.columnsAt, List.map_append] at hslots
    exact ⟨written.map (·.1), hsublist, rfl,
      Statement.readsAs_of_slots (read_update d htable hcolumns hkeyColumns) hslots⟩

theorem deleteByColumns_eq_ok {columns : List String} {values : List Value} {st : Statement}
    (h : Statement.deleteByColumns d table columns values = .ok st) :
    columns ≠ [] ∧ columns.length = values.length ∧ st.args = values ∧
      st.sql = Sql.render d (Statement.deleteFragments table.name columns) := by
  unfold Statement.deleteByColumns at h
  split at h
  · exact absurd h (by simp)
  · next hlength =>
    split at h
    · exact absurd h (by simp)
    · obtain rfl := Except.ok.inj h
      refine ⟨fun hnil => hlength (.inl (by simp [hnil])), ?_, rfl, rfl⟩
      exact Classical.byContradiction fun hne => hlength (.inr hne)

theorem readsBack_delete (hm : type.mapping = .ok m) (htable : IsTableName table.name)
    {record : ρ} {st : Statement} (h : Statement.delete m type d table key record = .ok st) :
    st.ReadsAs d .delete table.name [] (m.columnsAt key) [] (·.valueIn m type [record]) := by
  obtain ⟨keyArgs, hkey, h⟩ := bind_eq_ok_iff.1 h
  obtain ⟨hne, -, hargs, hsql⟩ := deleteByColumns_eq_ok h
  refine Statement.readsAs_of_slots (hsql ▸ read_delete d htable hne) ?_
  rw [hargs]
  exact map_valueIn_of_values hm d (Mapping.keyValues_eq_ok_iff.1 hkey).2

theorem readsBack_fetch (hm : type.mapping = .ok m) (htable : IsTableName table.name)
    {indexes : List m.Index} {record : ρ} {st : Statement}
    (h : Statement.fetch m type d table key indexes record = .ok st) :
    st.ReadsAs d .select table.name (m.columnsAt indexes) (m.columnsAt key) []
      (·.valueIn m type [record]) := by
  obtain ⟨keyArgs, hkey, h⟩ := bind_eq_ok_iff.1 h
  obtain rfl := Except.ok.inj h
  obtain ⟨⟨hne, -⟩, hvalues⟩ := Mapping.keyValues_eq_ok_iff.1 hkey
  have hkeyColumns : m.columnsAt key ≠ [] := by simpa [Mapping.columnsAt] using hne
  exact Statement.readsAs_of_slots (read_fetch d htable _ hkeyColumns)
    (map_valueIn_of_values hm d hvalues)

/-! ## Main result -/

/-- **Every statement says what it was built from.**  From its text alone, by the quotes and
placeholders of the dialect, a reader gets the table, the columns and the columns of the key as the
mapping has them; the arguments are those of its placeholders in order.  `update` is also the
statement of a patch. -/
theorem statements_readBack (d : Dialect) (hm : type.mapping = .ok m)
    (htable : IsTableName table.name) (key : List m.Index) :
    (∀ record st, InsertStatement.ofRecord m type d table key record = .ok st →
      st.ReadsBack type d table [record]) ∧
    (∀ records st, InsertStatement.ofRecords m type d table key records = .ok st →
      st.ReadsBack type d table records) ∧
    (∀ skipNulls record st, Statement.update m type d table key skipNulls record = .ok st →
      ∃ assigned : List m.Index, assigned.Sublist m.indexes ∧ st.columns = m.columnsAt assigned ∧
        st.ReadsAs d .update table.name (m.columnsAt assigned) (m.columnsAt key) []
          (·.valueIn m type [record])) ∧
    (∀ record st, Statement.delete m type d table key record = .ok st →
      st.ReadsAs d .delete table.name [] (m.columnsAt key) [] (·.valueIn m type [record])) ∧
    (∀ columns values st, Statement.deleteByColumns d table columns values = .ok st →
      st.args = values ∧ columns.length = values.length ∧
        ∃ slots, readStatement d st.sql = some ⟨.delete, table.name, [], columns, [], slots⟩ ∧
          slots.map (·.number) = (List.range' 1 st.args.length).map d.number? ∧
          slots.map (·.column) = columns) ∧
    (∀ indexes record st, Statement.fetch m type d table key indexes record = .ok st →
      st.ReadsAs d .select table.name (m.columnsAt indexes) (m.columnsAt key) []
        (·.valueIn m type [record])) := by
  refine ⟨fun _ _ => readsBack_ofRecord hm htable, fun _ _ => readsBack_ofRecords hm htable,
    fun _ _ _ => readsBack_update hm htable, fun _ _ => readsBack_delete hm htable,
    fun columns values st h => ?_, fun _ _ _ => readsBack_fetch hm htable⟩
  obtain ⟨hne, hlength, hargs, hsql⟩ := deleteByColumns_eq_ok h
  have hnumbers := map_number_rowsSlots d columns 0 1
  have hcolumns := congrArg (List.map Prod.snd) (map_place_rowsSlots d columns 0 1)
  rw [Nat.zero_mul, Nat.one_mul, Nat.add_zero, hlength, ← hargs] at hnumbers
  refine ⟨hargs, hlength, _, hsql ▸ read_delete d htable hne, hnumbers, ?_⟩
  simpa [Function.comp_def] using hcolumns

/-- Records whose columns hold quotes and placeholders. -/
def quotedShape : Shape :=
  .plain "id" "]?,pk" (.int .int64) (.plain "name" "$1\x22[" .text .nil)

/-- The columns of such records. -/
def quotedMapping : Mapping :=
  ⟨"Quoted", [⟨"]?", "id", [0], true, false⟩, ⟨"$1\x22[", "name", [1], false, false⟩], [0],
    ⟨[("]?", 0), ("$1\x22[", 1)], [("]?", 0), ("$1\x22[", 1)]⟩, none⟩

/-- The first field of such records. -/
def quotedKey : quotedMapping.Index := ⟨0, by decide⟩

theorem mapping_quotedShape :
    (quotedShape.recordType "Quoted").mapping = .ok quotedMapping := by
  cbv

/-- A record that the database has not numbered yet. -/
def quotedRecord : quotedShape.Data := (⟨0, IntKind.int64.holds_zero⟩, "x", ())

theorem sql_quotedRecord :
    (InsertStatement.ofRecord quotedMapping (quotedShape.recordType "Quoted") .sqlServer
      ⟨"dbo.orders", []⟩ [quotedKey] quotedRecord).map (·.sql) =
      .ok "INSERT INTO dbo.orders ([$1\x22[]) OUTPUT INSERTED.[]]?] VALUES (@p1)" := by
  cbv

theorem statements_readBack_quoted :
    (quotedShape.recordType "Quoted").mapping = .ok quotedMapping ∧
    IsTableName "dbo.orders" ∧
    ∃ st, InsertStatement.ofRecord quotedMapping (quotedShape.recordType "Quoted") .sqlServer
        ⟨"dbo.orders", []⟩ [quotedKey] quotedRecord = .ok st ∧
      st.sql = "INSERT INTO dbo.orders ([$1\x22[]) OUTPUT INSERTED.[]]?] VALUES (@p1)" ∧
      st.ReadsBack (quotedShape.recordType "Quoted") .sqlServer ⟨"dbo.orders", []⟩
        [quotedRecord] := by
  have hm := mapping_quotedShape
  have htable : IsTableName "dbo.orders" := by decide
  have hsql := sql_quotedRecord
  refine ⟨hm, htable, ?_⟩
  cases hst : InsertStatement.ofRecord quotedMapping (quotedShape.recordType "Quoted") .sqlServer
      ⟨"dbo.orders", []⟩ [quotedKey] quotedRecord with
  | error e =>
    rw [hst] at hsql
    exact absurd hsql (by simp [Except.map])
  | ok st =>
    rw [hst] at hsql
    exact ⟨st, rfl, Except.ok.inj hsql,
      (statements_readBack .sqlServer hm htable [quotedKey]).1 _ st hst⟩

end TableRecords
