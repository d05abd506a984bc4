import TableRecords.Proofs.Mapping.Columns
import TableRecords.Proofs.Statement.Plan

/-!
# Inserts of several records

One statement inserts several records if each of them could be inserted on its own, by statements of
the same columns.  It is these statements joined: row by row it has their arguments, behind
placeholders that are numbered on from row to row, between the text that all of them have in common:

    ofRecords_joins
-/

namespace TableRecords

open Sql (Fragment separated columnList rowOf)

variable {ρ : Type}

/-! ## Rows of one width -/

/-- Rows of one width stand one after the other. -/
theorem getElem?_flatMap_of_width {α β : Type} {f : α → List β} {width : Nat} {xs : List α}
    (hwidth : ∀ x ∈ xs, (f x).length = width) {r c : Nat} (hc : c < width) :
    (xs.flatMap f)[r * width + c]? = xs[r]?.bind fun x => (f x)[c]? := by
  induction xs generalizing r with
  | nil => simp
  | cons x xs ih =>
    have hx : (f x).length = width := hwidth x List.mem_cons_self
    rw [List.flatMap_cons]
    cases r with
    | zero =>
      rw [Nat.zero_mul, Nat.zero_add, List.getElem?_append_left (by omega)]
      rfl
    | succ r =>
      have hplace : (r + 1) * width + c = (f x).length + (r * width + c) := by
        rw [Nat.succ_mul, hx]
        omega
      rw [hplace, List.getElem?_append_right (Nat.le_add_right _ _), Nat.add_sub_cancel_left,
        ih fun y hy => hwidth y (List.mem_cons_of_mem x hy)]
      rfl

theorem param_not_mem_separated {separator : String} {items : List (List Fragment)} {n : Nat}
    (h : ∀ item ∈ items, Fragment.param n ∉ item) : Fragment.param n ∉ separated separator items := by
  induction items with
  | nil => exact List.not_mem_nil
  | cons item items ih =>
    cases items with
    | nil => exact h item List.mem_cons_self
    | cons next items =>
      have hrest := ih fun item hitem => h item (List.mem_cons_of_mem _ hitem)
      simp [separated, h item List.mem_cons_self, hrest]

/-! ## Statements joined -/

namespace InsertStatement

/-- Row number `r` of placeholders, one for each of `width` columns. -/
def placeholderRow (width r : Nat) : List Fragment :=
  .text "(" :: separated ", " ((List.range width).map fun c => [.param (1 + r * width + c)]) ++
    [.text ")"]

/-- The text of an insert in front of its rows, with a clause behind the columns. -/
def head (table : String) (columns : List String) (clause : List Fragment) : List Fragment :=
  .text s!"INSERT INTO {table} (" :: columnList columns ++ .text ")" :: clause ++
    [.text " VALUES "]

/-- The insert of several records is that of each of them, joined. -/
structure Joins {m : Mapping} (type : RecordType ρ) (d : Dialect) (table : Table)
    (key : List m.Index) (records : List ρ) (singles : List (InsertStatement m))
    (st : InsertStatement m) : Prop where
  each : records.map (ofRecord m type d table key) = singles.map .ok
  columns : ∀ one ∈ singles, one.columns = st.columns
  readBack : ∀ one ∈ singles, one.readBack = st.readBack
  args : st.args = singles.flatMap (·.args)
  /-- The texts name the same columns and have one tail.  They differ in their rows, which hold all
  placeholders. -/
  text : ∃ clause tail : List Fragment,
    (∀ n, .param n ∉ head table.name st.columns clause ++ tail) ∧
    st.sql = Sql.render d (head table.name st.columns clause ++ separated ", "
      ((List.range records.length).map (placeholderRow st.columns.length)) ++ tail) ∧
    ∀ one ∈ singles, one.sql = Sql.render d
      (head table.name st.columns clause ++ placeholderRow st.columns.length 0 ++ tail)
  /-- The placeholder of a column in a row, which is number `1 + r * st.columns.length + c`, has the
  value of this column in this record. -/
  bound : ∃ written : List m.Index, st.columns = m.columnsAt written ∧
    ∀ r c record i, records[r]? = some record → written[c]? = some i →
      ∃ v, m.valueOf type record i = .ok v ∧ st.args[r * st.columns.length + c]? = some v

variable {m : Mapping} {type : RecordType ρ} {d : Dialect} {table : Table} {key : List m.Index}

/-! ## The text -/

theorem rowOf_eq_placeholderRow (width r : Nat) :
    rowOf (1 + r * width) width = placeholderRow width r := by
  unfold rowOf placeholderRow
  rw [List.range'_eq_map_range, List.map_map]
  rfl

/-- Only the rows of an insert depend on how many there are. -/
theorem exists_clause_tail (d : Dialect) (table : String) (columns readBack : List String) :
    ∃ clause tail : List Fragment, (∀ n, .param n ∉ head table columns clause ++ tail) ∧
      ∀ rows, fragments d table columns rows readBack =
        head table columns clause ++
          separated ", " ((List.range rows).map (placeholderRow columns.length)) ++ tail := by
  have hcolumns : ∀ cs n, Fragment.param n ∉ columnList cs := by
    intro cs n
    refine param_not_mem_separated fun item hitem => ?_
    obtain ⟨c, -, rfl⟩ := List.mem_map.1 hitem
    simp
  have houtput : ∀ n, Fragment.param n ∉ outputClause d readBack := by
    intro n
    unfold outputClause
    split
    · have hinserted : Fragment.param n ∉
          separated ", " (readBack.map fun c => [.text "INSERTED.", .ident c]) := by
        refine param_not_mem_separated fun item hitem => ?_
        obtain ⟨c, -, rfl⟩ := List.mem_map.1 hitem
        simp
      simp [hinserted]
    · simp
  have hreturning : ∀ n, Fragment.param n ∉ returningClause d readBack := by
    intro n
    unfold returningClause
    split
    · simp [hcolumns]
    · simp
  refine ⟨outputClause d readBack, returningClause d readBack, fun n => ?_, fun rows => ?_⟩
  · simp [head, hcolumns, houtput, hreturning]
  · simp [fragments, head, rowOf_eq_placeholderRow]

/-! ## Plans of the same columns -/

/-- Plans that write the same columns read the same ones back. -/
theorem readBack_eq_of_columns_eq {record record' : ρ} {plan plan' : InsertPlan m}
    (h : InsertPlan.ofRecord m type key record = .ok plan)
    (h' : InsertPlan.ofRecord m type key record' = .ok plan')
    (hcolumns : plan.columns = plan'.columns) : plan.readBack = plan'.readBack := by
  refine (InsertPlan.alike_of_pending_iff (fun i hi => ?_) h h').2
  have hwritten := (InsertPlan.mem_iff h i).1
  have hwritten' := (InsertPlan.mem_iff h' i).1
  rw [and_iff_right hi] at hwritten hwritten'
  rw [hcolumns] at hwritten
  exact not_iff_not.1 (hwritten.symm.trans hwritten')

/-- The plans of some records are those of their single inserts. -/
theorem map_ofRecord {records : List ρ} {plans : List (InsertPlan m)}
    (hplans : records.map (InsertPlan.ofRecord m type key) = plans.map .ok)
    (hwritten : ∀ plan ∈ plans, plan.written ≠ []) :
    records.map (ofRecord m type d table key) =
      (plans.map fun plan => ofPlans d table plan [plan]).map .ok := by
  induction records generalizing plans with
  | nil =>
    rw [List.map_eq_nil_iff.1 hplans.symm]
    rfl
  | cons record records ih =>
    cases plans with
    | nil => exact absurd hplans (by simp)
    | cons plan plans =>
      rw [List.map_cons, List.map_cons, List.cons.injEq] at hplans
      rw [List.map_cons, List.map_cons, List.map_cons,
        ih hplans.2 fun p hp => hwritten p (List.mem_cons_of_mem plan hp),
        ofRecord_eq_ok_iff.2 ⟨plan, hplans.1, hwritten plan List.mem_cons_self, rfl⟩]

/-- A value of a record is at the place of its column in its row. -/
theorem getElem?_args {records : List ρ} {plans : List (InsertPlan m)} {written : List m.Index}
    (hplans : records.map (InsertPlan.ofRecord m type key) = plans.map .ok)
    (hcolumns : ∀ plan ∈ plans, plan.columns = written) {r c : Nat} {record : ρ} {i : m.Index}
    (hr : records[r]? = some record) (hc : written[c]? = some i) :
    ∃ v, m.valueOf type record i = .ok v ∧
      (plans.flatMap fun plan => plan.written.map (·.2))[r * written.length + c]? = some v := by
  have hplan := congrArg (·[r]?) hplans
  simp only [List.getElem?_map, hr, Option.map_some] at hplan
  obtain ⟨plan, hplan, hrecord⟩ := Option.map_eq_some_iff.1 hplan.symm
  have hwidth : ∀ plan ∈ plans, (plan.written.map (·.2)).length = written.length := by
    intro plan hmem
    rw [← hcolumns plan hmem]
    simp [InsertPlan.columns]
  have hvalue := congrArg (·[c]?) (InsertPlan.sublist_of_eq_ok hrecord.symm).2.2
  simp only [hcolumns plan (List.mem_of_getElem? hplan), List.getElem?_map, hc,
    Option.map_some] at hvalue
  obtain ⟨p, hp, hv⟩ := Option.map_eq_some_iff.1 hvalue.symm
  refine ⟨p.2, hv.symm, ?_⟩
  rw [getElem?_flatMap_of_width hwidth (List.getElem?_eq_some_iff.1 hc).1, hplan, Option.bind_some,
    List.getElem?_map, hp, Option.map_some]

theorem joins_of_eq_ok {records : List ρ} {st : InsertStatement m}
    (h : ofRecords m type d table key records = .ok st) :
    ∃ singles, st.Joins type d table key records singles := by
  obtain ⟨first, rest, hplans, hwritten, hrest, rfl⟩ := ofRecords_eq_ok_iff.1 h
  have hcolumns : ∀ plan ∈ first :: rest, plan.columns = first.columns :=
    List.forall_mem_cons.2 ⟨rfl, hrest⟩
  have hplan : ∀ plan ∈ first :: rest, ∃ record,
      InsertPlan.ofRecord m type key record = .ok plan := by
    intro plan hmem
    obtain ⟨record, -, hrecord⟩ := exists_of_mem_map_ok hplans hmem
    exact ⟨record, hrecord⟩
  have hreadBack : ∀ plan ∈ first :: rest, plan.readBack = first.readBack := by
    intro plan hmem
    obtain ⟨record, hrecord⟩ := hplan plan hmem
    obtain ⟨record', hrecord'⟩ := hplan first List.mem_cons_self
    exact readBack_eq_of_columns_eq hrecord hrecord' (hcolumns plan hmem)
  have hne : ∀ plan ∈ first :: rest, plan.written ≠ [] := by
    intro plan hmem hnil
    have := hcolumns plan hmem
    simp [InsertPlan.columns, hnil, hwritten] at this
  have hlength : records.length = (first :: rest).length := by
    have := congrArg List.length hplans
    rwa [List.length_map, List.length_map] at this
  obtain ⟨clause, tail, hnone, hfragments⟩ := exists_clause_tail d table.name
    (m.columnsAt first.columns) (m.columnsAt first.readBack)
  refine ⟨(first :: rest).map fun plan => ofPlans d table plan [plan], ?_⟩
  exact
    { each := map_ofRecord hplans hne
      columns := List.forall_mem_map.2 fun plan hmem => by
        show m.columnsAt plan.columns = m.columnsAt first.columns
        rw [hcolumns plan hmem]
      readBack := List.forall_mem_map.2 hreadBack
      args := by simp [ofPlans, List.flatMap_map]
      text := by
        refine ⟨clause, tail, hnone, ?_, List.forall_mem_map.2 fun plan hmem => ?_⟩
        · rw [hlength]
          exact congrArg (Sql.render d) (hfragments _)
        · show Sql.render d (fragments d table.name (m.columnsAt plan.columns) 1
            (m.columnsAt plan.readBack)) = _
          rw [hcolumns plan hmem, hreadBack plan hmem, hfragments]
          rfl
      bound := by
        refine ⟨first.columns, rfl, fun r c record i hr hc => ?_⟩
        have hwidth : (ofPlans d table first (first :: rest)).columns.length =
            first.columns.length := List.length_map ..
        rw [hwidth]
        exact getElem?_args hplans hcolumns hr hc }

/-! ## When there is one -/

/-- Several records are inserted if each of them is, and all with the same columns. -/
theorem exists_ofRecords_iff {typeName : String} {tags : List FieldTag}
    (hm : Mapping.ofTags typeName tags = .ok m) (records : List ρ) :
    (∃ st, ofRecords m type d table key records = .ok st) ↔
      records ≠ [] ∧ ∃ columns, ∀ record ∈ records,
        ∃ one, ofRecord m type d table key record = .ok one ∧ one.columns = columns := by
  constructor
  · rintro ⟨st, h⟩
    obtain ⟨singles, hjoins⟩ := joins_of_eq_ok h
    refine ⟨?_, st.columns, fun record hrecord => ?_⟩
    · rintro rfl
      exact absurd h (by simp [ofRecords])
    · have hone : ofRecord m type d table key record ∈
          records.map (ofRecord m type d table key) := List.mem_map_of_mem hrecord
      rw [hjoins.each] at hone
      obtain ⟨one, hmem, hone⟩ := List.mem_map.1 hone
      exact ⟨one, hone.symm, hjoins.columns one hmem⟩
  · rintro ⟨hne, columns, hall⟩
    have hplan : ∀ record ∈ records, ∃ plan, InsertPlan.ofRecord m type key record = .ok plan ∧
        plan.written ≠ [] ∧ m.columnsAt plan.columns = columns := by
      intro record hrecord
      obtain ⟨one, hone, hcolumns⟩ := hall record hrecord
      obtain ⟨plan, hplan, hwritten, rfl⟩ := ofRecord_eq_ok_iff.1 hone
      exact ⟨plan, hplan, hwritten, hcolumns⟩
    obtain ⟨plans, hplans⟩ := exists_mapM_eq_ok fun record hrecord =>
      (hplan record hrecord).imp fun _ h => h.1
    have hplans := mapM_eq_ok_iff.1 hplans
    have hwritten : ∀ plan ∈ plans, plan.written ≠ [] ∧ m.columnsAt plan.columns = columns := by
      intro plan hmem
      obtain ⟨record, hrecord, h⟩ := exists_of_mem_map_ok hplans hmem
      obtain ⟨plan', h', hwritten⟩ := hplan record hrecord
      obtain rfl := Except.ok.inj (h'.symm.trans h)
      exact hwritten
    cases plans with
    | nil => exact absurd (List.map_eq_nil_iff.1 hplans) hne
    | cons first rest =>
      obtain ⟨hfirst, hcolumns⟩ := hwritten first List.mem_cons_self
      refine ⟨_, ofRecords_eq_ok_iff.2 ⟨first, rest, hplans, hfirst, fun plan hmem => ?_, rfl⟩⟩
      -- No two fields share a column, so the places agree as soon as the names do.
      refine List.map_injective_iff.2 (Mapping.column_injective hm) ?_
      exact (hwritten plan (List.mem_cons_of_mem first hmem)).2.trans hcolumns.symm

/-- The insert of a list of one record is the insert of this record, also where it fails. -/
theorem ofRecords_singleton (m : Mapping) (type : RecordType ρ) (d : Dialect) (table : Table)
    (key : List m.Index) (record : ρ) :
    ofRecords m type d table key [record] = ofRecord m type d table key record := by
  unfold ofRecords ofRecord
  rw [List.mapM_cons, List.mapM_nil]
  cases InsertPlan.ofRecord m type key record <;> rfl

/-- **The insert of several records is that of each of them, joined.**  It is there if each record
can be inserted on its own and all are inserted with the same columns, and of one record it is the
insert of this record. -/
theorem ofRecords_joins {typeName : String} {tags : List FieldTag}
    (hm : Mapping.ofTags typeName tags = .ok m) (type : RecordType ρ) (d : Dialect) (table : Table)
    (key : List m.Index) :
    (∀ records, (∃ st, ofRecords m type d table key records = .ok st) ↔
      records ≠ [] ∧ ∃ columns, ∀ record ∈ records,
        ∃ one, ofRecord m type d table key record = .ok one ∧ one.columns = columns) ∧
    (∀ records st, ofRecords m type d table key records = .ok st →
      ∃ singles, st.Joins type d table key records singles) ∧
    ∀ record, ofRecords m type d table key [record] = ofRecord m type d table key record :=
  ⟨exists_ofRecords_iff hm, fun _ _ h => joins_of_eq_ok h, ofRecords_singleton m type d table key⟩

/-- Two new notes are inserted by one statement, whose second row goes on with the second
placeholder. -/
theorem ofRecords_joins_notes :
    Mapping.ofTags "Note" noteType.tags = .ok noteMapping ∧
    ∃ st singles, ofRecords noteMapping noteType .postgres ⟨"notes", []⟩ [noteKey]
        [noteOf 0 "a" "" "", noteOf 0 "b" "" ""] = .ok st ∧
      st.sql = "INSERT INTO notes (\"code\") VALUES ($1), ($2) RETURNING \"id\", \"CODE\", \"stamp\"" ∧
      st.args = [.text "a", .text "b"] ∧
      st.Joins noteType .postgres ⟨"notes", []⟩ [noteKey]
        [noteOf 0 "a" "" "", noteOf 0 "b" "" ""] singles := by
  have hm : Mapping.ofTags "Note" noteType.tags = .ok noteMapping := mapping_noteType
  obtain ⟨-, hjoins, -⟩ := ofRecords_joins hm noteType .postgres ⟨"notes", []⟩ [noteKey]
  obtain ⟨st, hst, hsql, hargs⟩ : ∃ st, ofRecords noteMapping noteType .postgres ⟨"notes", []⟩
      [noteKey] [noteOf 0 "a" "" "", noteOf 0 "b" "" ""] = .ok st ∧
      st.sql = "INSERT INTO notes (\"code\") VALUES ($1), ($2) RETURNING \"id\", \"CODE\", \"stamp\"" ∧
      st.args = [.text "a", .text "b"] := ⟨_, rfl, by decide +kernel, rfl⟩
  obtain ⟨singles, hst'⟩ := hjoins _ st hst
  exact ⟨hm, st, singles, hst, hsql, hargs, hst'⟩

end InsertStatement
end TableRecords
