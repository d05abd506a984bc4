import TableRecords.Proofs.Scan.RoundTrip
import TableRecords.Proofs.Statement.Pattern
import TableRecords.Proofs.Statement.ReadBack

/-!
# What an update writes, and where

An update sets the columns outside of the key that the database does not generate, and a patch those
of them that are not NULL.  It finds its row by all columns of the key, none of which may hold zero:

    update_writes_by_key : when there is an update, with which text and arguments; and else why not

The columns that are set are those of `Mapping.Sets`, and the reasons for a refusal those of
`Mapping.RefusesUpdate`.
-/

namespace TableRecords

variable {ρ : Type}

/-- In a sorted list, what stands in front of an element is what is less. -/
theorem exists_split_iff {α : Type} [LinearOrder α] {P Q : α → Prop} {xs : List α}
    (h : xs.Pairwise (· < ·)) :
    (∃ before x after, xs = before ++ x :: after ∧ (∀ y ∈ before, P y) ∧ Q x) ↔
      ∃ x ∈ xs, Q x ∧ ∀ y ∈ xs, y < x → P y := by
  constructor
  · rintro ⟨before, x, after, rfl, hbefore, hx⟩
    obtain ⟨-, hafter, -⟩ := List.pairwise_append.1 h
    refine ⟨x, List.mem_append_right before List.mem_cons_self, hx, fun y hy hlt => ?_⟩
    rcases List.mem_append.1 hy with hy | hy
    · exact hbefore y hy
    · rcases List.mem_cons.1 hy with rfl | hy
      · exact absurd hlt (lt_irrefl y)
      · exact absurd hlt (lt_asymm ((List.pairwise_cons.1 hafter).1 y hy))
  · rintro ⟨x, hmem, hx, hless⟩
    obtain ⟨before, after, rfl⟩ := List.append_of_mem hmem
    have hlt := (List.pairwise_append.1 h).2.2
    refine ⟨before, x, after, rfl, fun y hy => ?_, hx⟩
    exact hless y (List.mem_append_left _ hy) (hlt y hy x List.mem_cons_self)

/-! ## Columns that are set -/

namespace Mapping

variable (m : Mapping) (type : RecordType ρ) (table : Table) (key : List m.Index) (skipNulls : Bool)
  (record : ρ)

instance (i : m.Index) : Decidable (m.OutsideKey key i) :=
  inferInstanceAs (Decidable (i ∉ key ∧ (m.field i).generated = false))

/-- The column at a place is set: it is outside of the key and not generated, and not NULL if NULLs
are left out. -/
def Sets (i : m.Index) : Prop :=
  m.OutsideKey key i ∧ (skipNulls = true → m.valueOf type record i ≠ .ok .null)

/-- All columns that an update may set can be encoded. -/
def EncodesOutside : Prop := ∀ i, m.OutsideKey key i → ∃ v, m.valueOf type record i = .ok v

/-- Why there is no update of a record.  Each reason comes behind those above it. -/
inductive RefusesUpdate : Error → Prop where
  | key {e : Error} (h : m.RefusesKey type table key record e) : RefusesUpdate e
  /-- The first column outside of the key that cannot be encoded. -/
  | unencoded {i : m.Index} {e : CoerceError} (hkey : m.KeyAssigned type key record)
    (houtside : m.OutsideKey key i) (hi : type.get record (m.field i).path = .error e)
    (hfirst : ∀ j < i, m.OutsideKey key j → ∃ v, m.valueOf type record j = .ok v) :
    RefusesUpdate (.invalidArgument s!"field {(m.field i).field}: {e.message}")
  | nothingLeft (hkey : m.KeyAssigned type key record) (hencodes : m.EncodesOutside type key record)
    (hnone : ∀ i, ¬ m.Sets type key skipNulls record i) :
    RefusesUpdate (.noColumns table.name)

end Mapping

namespace Statement

/-- The columns at some places, each compared with its placeholder, the first with number
`first`. -/
def comparisons (d : Dialect) (m : Mapping) (first : Nat) (is : List m.Index) : List (List Char) :=
  (is.zipIdx first).map fun (i, n) =>
    d.quoteIdent (m.field i).column.toList ++ " = ".toList ++ d.placeholder n

/-- The text of an update.  The placeholders of the key go on behind those of the columns that are
set. -/
def updateText (d : Dialect) (table : Table) (m : Mapping) (assigned key : List m.Index) :
    List Char :=
  s!"UPDATE {table.name} SET ".toList ++ ", ".toList.intercalate (comparisons d m 1 assigned) ++
    " WHERE ".toList ++ " AND ".toList.intercalate (comparisons d m (assigned.length + 1) key)

/-- A statement writes the columns at the places `assigned` of a record to the row that has its
key. -/
structure Updates {m : Mapping} (type : RecordType ρ) (d : Dialect) (table : Table)
    (key : List m.Index) (skipNulls : Bool) (record : ρ) (assigned : List m.Index)
    (st : Statement) : Prop where
  kind : st.kind = .update
  table_eq : st.table = table.name
  filter : st.filter = none
  /-- The columns stand in the order of declaration. -/
  sorted : assigned.Pairwise (· < ·)
  mem_iff : ∀ i, i ∈ assigned ↔ m.Sets type key skipNulls record i
  assigned_ne : assigned ≠ []
  encodes : m.EncodesOutside type key record
  /-- Every column of the key is compared with a value that is not zero. -/
  key_assigned : m.KeyAssigned type key record
  columns : st.columns = m.columnsAt assigned
  sql : st.sql = String.ofList (updateText d table m assigned key)
  /-- The arguments are the values of these columns, and behind them those of the key. -/
  args : (assigned ++ key).map (m.valueOf type record) = st.args.map .ok

/-! ## The text -/

theorem flatMap_equalities (d : Dialect) (m : Mapping) (separator : String) (first : Nat)
    (is : List m.Index) :
    (Sql.equalities separator first (m.columnsAt is)).flatMap (Sql.Fragment.chars d) =
      separator.toList.intercalate (comparisons d m first is) := by
  have hpairs : (m.columnsAt is).zip (List.range' first (m.columnsAt is).length) =
      (is.zipIdx first).map fun p => ((m.field p.1).column, p.2) := by
    rw [Mapping.columnsAt, List.length_map, List.zip_map_left, ← List.zipIdx_eq_zip_range']
    rfl
  rw [Sql.equalities, Sql.flatMap_separated, hpairs, List.map_map, List.map_map, comparisons]
  congr 1
  refine List.map_congr_left fun p _ => ?_
  simp [Sql.Fragment.chars]

theorem render_updateFragments (d : Dialect) (table : Table) (m : Mapping)
    (assigned key : List m.Index) :
    Sql.render d (updateFragments table.name (m.columnsAt assigned) (m.columnsAt key)) =
      String.ofList (updateText d table m assigned key) := by
  have hlength : (m.columnsAt assigned).length = assigned.length := List.length_map _
  rw [Sql.render, updateFragments, updateText, hlength, List.flatMap_append, List.flatMap_cons,
    List.flatMap_cons, flatMap_equalities, flatMap_equalities]
  simp only [Sql.Fragment.chars, List.append_assoc]

/-! ## What is set -/

variable {m : Mapping} {type : RecordType ρ} {d : Dialect} {table : Table} {key : List m.Index}
  {skipNulls : Bool} {record : ρ}

/-- A column with its value. -/
def cell (m : Mapping) (type : RecordType ρ) (record : ρ) (i : m.Index) :
    Except Error (m.Index × Value) :=
  (m.valueOf type record i).map fun v => (i, v)

/-- The places outside of the key, in the order of declaration. -/
def outside (m : Mapping) (key : List m.Index) : List m.Index :=
  m.indexes.filter fun i => m.OutsideKey key i

/-- All columns outside of the key are read, and only then NULLs are left out. -/
theorem assignments_eq (is : List m.Index) :
    assignments m type key skipNulls record is =
      ((is.filter fun i => m.OutsideKey key i).mapM (cell m type record)).map
        (·.filter fun p => !(skipNulls && p.2.isNull)) := by
  induction is with
  | nil => rfl
  | cons i is ih =>
    rw [assignments]
    by_cases hi : m.OutsideKey key i
    · have hleft : ¬ ((m.field i).generated = true ∨ i ∈ key) := by
        rw [hi.2]
        simp [hi.1]
      rw [if_neg hleft, ih, List.filter_cons_of_pos (by simpa using hi), List.mapM_cons, cell]
      cases m.valueOf type record i with
      | error e => rfl
      | ok v =>
        cases (is.filter fun i => m.OutsideKey key i).mapM (cell m type record) with
        | error e => rfl
        | ok more =>
          show Except.ok _ = Except.ok (List.filter _ ((i, v) :: more))
          rw [List.filter_cons]
          cases skipNulls <;> cases v.isNull <;> rfl
    · have hleft : (m.field i).generated = true ∨ i ∈ key := by
        by_cases hkey : i ∈ key
        · exact .inr hkey
        · exact .inl (by simpa using fun hgenerated => hi ⟨hkey, hgenerated⟩)
      rw [if_pos hleft, ih, List.filter_cons_of_neg (by simpa using hi)]

theorem assignments_indexes :
    assignments m type key skipNulls record m.indexes =
      ((outside m key).mapM (cell m type record)).map
        (·.filter fun p => !(skipNulls && p.2.isNull)) :=
  assignments_eq m.indexes

theorem cell_eq_ok_iff {i : m.Index} {p : m.Index × Value} :
    cell m type record i = .ok p ↔ p.1 = i ∧ m.valueOf type record i = .ok p.2 := by
  unfold cell
  cases m.valueOf type record i with
  | error e => simp [Except.map]
  | ok v =>
    constructor
    · intro h
      obtain rfl := Except.ok.inj h
      exact ⟨rfl, rfl⟩
    · rintro ⟨rfl, h⟩
      obtain rfl := Except.ok.inj h
      rfl

theorem cell_eq_error_iff {i : m.Index} {e : Error} :
    cell m type record i = .error e ↔ m.valueOf type record i = .error e := by
  unfold cell
  cases m.valueOf type record i <;> simp [Except.map]

theorem mem_of_mapM_cell {is : List m.Index} {pairs : List (m.Index × Value)}
    (h : is.mapM (cell m type record) = .ok pairs) (i : m.Index) (v : Value) :
    (i, v) ∈ pairs ↔ i ∈ is ∧ m.valueOf type record i = .ok v := by
  have hpairs := mapM_eq_ok_iff.1 h
  constructor
  · intro hmem
    obtain ⟨j, hj, hcell⟩ := exists_of_mem_map_ok hpairs hmem
    obtain ⟨rfl, hv⟩ := cell_eq_ok_iff.1 hcell
    exact ⟨hj, hv⟩
  · rintro ⟨hi, hv⟩
    have hcell : cell m type record i = .ok (i, v) := cell_eq_ok_iff.2 ⟨rfl, hv⟩
    have hmem : cell m type record i ∈ is.map (cell m type record) := List.mem_map_of_mem hi
    rw [hpairs, hcell] at hmem
    obtain ⟨p, hp, heq⟩ := List.mem_map.1 hmem
    exact Except.ok.inj heq ▸ hp

theorem mem_outside (i : m.Index) : i ∈ outside m key ↔ m.OutsideKey key i := by
  rw [outside, List.mem_filter, decide_eq_true_eq]
  exact and_iff_right (List.mem_finRange i)

theorem sorted_outside : (outside m key).Pairwise (· < ·) :=
  List.Pairwise.filter _ (List.pairwise_lt_finRange _)

theorem exists_cell_iff {i : m.Index} :
    (∃ p, cell m type record i = .ok p) ↔ ∃ v, m.valueOf type record i = .ok v := by
  unfold cell
  cases m.valueOf type record i <;> simp [Except.map]

theorem mem_assignments_iff {written : List (m.Index × Value)}
    (h : assignments m type key skipNulls record m.indexes = .ok written) (i : m.Index) :
    i ∈ written.map (·.1) ↔ m.Sets type key skipNulls record i := by
  rw [assignments_indexes] at h
  cases hpairs : (outside m key).mapM (cell m type record) with
  | error e =>
    rw [hpairs] at h
    exact absurd h (by simp [Except.map])
  | ok pairs =>
    rw [hpairs] at h
    obtain rfl := Except.ok.inj h
    rw [List.mem_map]
    constructor
    · rintro ⟨⟨j, v⟩, hp, rfl⟩
      obtain ⟨hmem, hkeep⟩ := List.mem_filter.1 hp
      obtain ⟨hj, hv⟩ := (mem_of_mapM_cell hpairs j v).1 hmem
      refine ⟨(mem_outside j).1 hj, fun hskip hnull => ?_⟩
      obtain rfl := Except.ok.inj (hv.symm.trans hnull)
      exact absurd hkeep (by simp [hskip, Value.isNull])
    · rintro ⟨houtside, hkeep⟩
      have hi := (mem_outside i).2 houtside
      obtain ⟨v, hv⟩ := exists_cell_iff.1 (exists_mapM_eq_ok_iff.1 ⟨pairs, hpairs⟩ i hi)
      have hmem : (i, v) ∈ pairs := (mem_of_mapM_cell hpairs i v).2 ⟨hi, hv⟩
      refine ⟨(i, v), List.mem_filter.2 ⟨hmem, ?_⟩, rfl⟩
      cases skipNulls with
      | false => rfl
      | true =>
        have hnull : v ≠ .null := fun heq => hkeep rfl (heq ▸ hv)
        cases v with
        | null => exact absurd rfl hnull
        | _ => rfl

/-- A column that cannot be encoded fails an update, also one of a patch. -/
theorem assignments_eq_error_iff {e : Error} :
    assignments m type key skipNulls record m.indexes = .error e ↔
      ∃ i, m.OutsideKey key i ∧ m.valueOf type record i = .error e ∧
        ∀ j < i, m.OutsideKey key j → ∃ v, m.valueOf type record j = .ok v := by
  have hmap : assignments m type key skipNulls record m.indexes = .error e ↔
      (outside m key).mapM (cell m type record) = .error e := by
    rw [assignments_indexes]
    cases (outside m key).mapM (cell m type record) <;>
      simp [Except.map]
  rw [hmap, mapM_eq_error_iff, exists_split_iff sorted_outside]
  simp only [mem_outside, exists_cell_iff, cell_eq_error_iff]
  refine exists_congr fun i => and_congr_right fun _ => and_congr_right fun _ => ?_
  exact forall_congr' fun j => imp.swap

theorem exists_assignments_iff :
    (∃ written, assignments m type key skipNulls record m.indexes = .ok written) ↔
      m.EncodesOutside type key record := by
  have hmap : (∃ written, assignments m type key skipNulls record m.indexes = .ok written) ↔
      ∃ pairs, (outside m key).mapM (cell m type record) =
        .ok pairs := by
    rw [assignments_indexes]
    cases (outside m key).mapM (cell m type record) <;>
      simp [Except.map]
  rw [hmap, exists_mapM_eq_ok_iff]
  simp only [mem_outside, exists_cell_iff]
  rfl

/-! ## The statement -/

theorem update_of_key_error {e : Error} (h : m.keyValues type table key record = .error e) :
    update m type d table key skipNulls record = .error e := by
  rw [update, h]
  rfl

/-- The update that sets some columns to their values. -/
def updateOf (d : Dialect) (table : Table) (key : List m.Index) (written : List (m.Index × Value))
    (keyArgs : List Value) : Statement where
  kind := .update
  table := table.name
  columns := m.columnsAt (written.map (·.1))
  filter := none
  sql := Sql.render d
    (updateFragments table.name (m.columnsAt (written.map (·.1))) (m.columnsAt key))
  args := written.map (·.2) ++ keyArgs

theorem update_of_key_ok {keyArgs : List Value}
    (h : m.keyValues type table key record = .ok keyArgs) :
    update m type d table key skipNulls record =
      match assignments m type key skipNulls record m.indexes with
      | .error e => .error e
      | .ok written =>
        if written = [] then .error (.noColumns table.name)
        else .ok (updateOf d table key written keyArgs) := by
  rw [update, h]
  show (assignments m type key skipNulls record m.indexes >>= _) = _
  cases assignments m type key skipNulls record m.indexes with
  | error e => rfl
  | ok written => cases written <;> rfl

theorem updates_updateOf {written : List (m.Index × Value)} {keyArgs : List Value}
    (hkey : m.keyValues type table key record = .ok keyArgs)
    (hwritten : assignments m type key skipNulls record m.indexes = .ok written)
    (hne : written ≠ []) :
    (updateOf d table key written keyArgs).Updates type d table key skipNulls record
      (written.map (·.1)) := by
  obtain ⟨hassigned, hkeyArgs⟩ := Mapping.keyValues_eq_ok_iff.1 hkey
  obtain ⟨hsublist, hvalues⟩ := written_assignments hwritten
  have hsorted : m.indexes.Pairwise (· < ·) := List.pairwise_lt_finRange _
  have hargs : (written.map (·.1) ++ key).map (m.valueOf type record) =
      (written.map (·.2) ++ keyArgs).map .ok := by
    rw [List.map_append, List.map_append, hvalues, hkeyArgs, List.map_map]
    rfl
  exact
    { kind := rfl
      table_eq := rfl
      filter := rfl
      sorted := hsorted.sublist hsublist
      mem_iff := mem_assignments_iff hwritten
      assigned_ne := by rwa [ne_eq, List.map_eq_nil_iff]
      encodes := exists_assignments_iff.1 ⟨written, hwritten⟩
      key_assigned := hassigned
      columns := rfl
      sql := render_updateFragments d table m _ key
      args := hargs }

/-- There is one such statement. -/
theorem Updates.unique {st st' : Statement} {assigned assigned' : List m.Index}
    (h : st.Updates type d table key skipNulls record assigned)
    (h' : st'.Updates type d table key skipNulls record assigned') : st = st' := by
  have hassigned : assigned = assigned' :=
    h.sorted.eq_of_mem_iff h'.sorted fun i => (h.mem_iff i).trans (h'.mem_iff i).symm
  have hargs : st.args = st'.args := by
    have hvalues := h.args.symm.trans (hassigned ▸ h'.args)
    exact List.map_injective_iff.2 (fun _ _ => Except.ok.inj) hvalues
  obtain ⟨kind, name, columns, filter, sql, args⟩ := st
  obtain ⟨kind', name', columns', filter', sql', args'⟩ := st'
  rw [Statement.mk.injEq]
  refine ⟨h.kind.trans h'.kind.symm, h.table_eq.trans h'.table_eq.symm, ?_,
    h.filter.trans h'.filter.symm, ?_, hargs⟩
  · exact h.columns.trans (hassigned ▸ h'.columns.symm)
  · exact h.sql.trans (hassigned ▸ h'.sql.symm)

theorem update_eq_ok_iff {st : Statement} :
    update m type d table key skipNulls record = .ok st ↔
      ∃ assigned, st.Updates type d table key skipNulls record assigned := by
  constructor
  · intro h
    cases hkey : m.keyValues type table key record with
    | error e =>
      rw [update_of_key_error hkey] at h
      exact absurd h (by simp)
    | ok keyArgs =>
      rw [update_of_key_ok hkey] at h
      cases hwritten : assignments m type key skipNulls record m.indexes with
      | error e =>
        rw [hwritten] at h
        exact absurd h (by simp)
      | ok written =>
        rw [hwritten] at h
        dsimp only at h
        split at h
        · exact absurd h (by simp)
        · next hne =>
          obtain rfl := Except.ok.inj h
          exact ⟨_, updates_updateOf hkey hwritten hne⟩
  · rintro ⟨assigned, h⟩
    obtain ⟨written, hwritten⟩ := exists_assignments_iff.2 h.encodes
    obtain ⟨keyArgs, hkey⟩ := Mapping.exists_keyValues_iff.2 h.key_assigned
    have hne : written ≠ [] := by
      rintro rfl
      obtain ⟨i, hi⟩ := List.exists_mem_of_ne_nil _ h.assigned_ne
      have hmem := (mem_assignments_iff hwritten i).2 ((h.mem_iff i).1 hi)
      exact absurd hmem List.not_mem_nil
    rw [update_of_key_ok hkey, hwritten]
    dsimp only
    rw [if_neg hne, h.unique (updates_updateOf hkey hwritten hne)]

theorem written_eq_nil_iff {written : List (m.Index × Value)}
    (h : assignments m type key skipNulls record m.indexes = .ok written) :
    written = [] ↔ ∀ i, ¬ m.Sets type key skipNulls record i := by
  rw [← List.map_eq_nil_iff (f := (·.1)), List.eq_nil_iff_forall_not_mem]
  exact forall_congr' fun i => not_congr (mem_assignments_iff h i)

/-- **Why there is no update.** -/
theorem update_eq_error_iff {e : Error} :
    update m type d table key skipNulls record = .error e ↔
      m.RefusesUpdate type table key skipNulls record e := by
  constructor
  · intro h
    cases hkey : m.keyValues type table key record with
    | error e' =>
      rw [update_of_key_error hkey] at h
      obtain rfl := Except.error.inj h
      exact .key (Mapping.keyValues_eq_error_iff.1 hkey)
    | ok keyArgs =>
      have hassigned := (Mapping.keyValues_eq_ok_iff.1 hkey).1
      rw [update_of_key_ok hkey] at h
      cases hwritten : assignments m type key skipNulls record m.indexes with
      | error e' =>
        rw [hwritten] at h
        obtain rfl := Except.error.inj h
        obtain ⟨i, houtside, hi, hfirst⟩ := assignments_eq_error_iff.1 hwritten
        obtain ⟨c, hc, rfl⟩ := Mapping.valueOf_eq_error_iff.1 hi
        exact .unencoded hassigned houtside hc hfirst
      | ok written =>
        rw [hwritten] at h
        dsimp only at h
        split at h
        · next hnil =>
          obtain rfl := Except.error.inj h
          exact .nothingLeft hassigned (exists_assignments_iff.1 ⟨written, hwritten⟩)
            ((written_eq_nil_iff hwritten).1 hnil)
        · exact absurd h (by simp)
  · rintro (hkey | ⟨hkey, houtside, hi, hfirst⟩ | ⟨hkey, hencodes, hnone⟩)
    · exact update_of_key_error (Mapping.keyValues_eq_error_iff.2 hkey)
    · obtain ⟨keyArgs, hkey⟩ := Mapping.exists_keyValues_iff.2 hkey
      have hvalue := Mapping.valueOf_eq_error_iff.2 ⟨_, hi, rfl⟩
      rw [update_of_key_ok hkey, assignments_eq_error_iff.2 ⟨_, houtside, hvalue, hfirst⟩]
    · obtain ⟨keyArgs, hkey⟩ := Mapping.exists_keyValues_iff.2 hkey
      obtain ⟨written, hwritten⟩ := exists_assignments_iff.2 hencodes
      rw [update_of_key_ok hkey, hwritten]
      exact if_pos ((written_eq_nil_iff hwritten).2 hnone)

/-- If no column outside of the key is NULL, a patch leaves none out. -/
theorem assignments_of_no_null
    (h : ∀ i, m.OutsideKey key i → m.valueOf type record i ≠ .ok .null) :
    assignments m type key true record m.indexes =
      assignments m type key false record m.indexes := by
  rw [assignments_indexes, assignments_indexes]
  cases hpairs : (outside m key).mapM (cell m type record) with
  | error e => rfl
  | ok pairs =>
    refine congrArg Except.ok (List.filter_congr ?_)
    rintro ⟨i, v⟩ hp
    obtain ⟨hi, hv⟩ := (mem_of_mapM_cell hpairs i v).1 hp
    have hnull : v ≠ .null := fun heq => h i ((mem_outside i).1 hi) (heq ▸ hv)
    cases v with
    | null => exact absurd rfl hnull
    | _ => rfl

/-- **An update writes by the full key.**  There is one exactly if the key of the record is
assigned, what is outside of it can be encoded, and something is left to set; then it sets these
columns where all columns of the key have their values.  Else it is refused, for the first reason
that applies.  A patch is the update if no column that would be set is NULL. -/
theorem update_writes_by_key (m : Mapping) (type : RecordType ρ) (d : Dialect) (table : Table)
    (key : List m.Index) (record : ρ) :
    (∀ skipNulls st, update m type d table key skipNulls record = .ok st ↔
      ∃ assigned, st.Updates type d table key skipNulls record assigned) ∧
    (∀ skipNulls e, update m type d table key skipNulls record = .error e ↔
      m.RefusesUpdate type table key skipNulls record e) ∧
    ((∀ i, m.OutsideKey key i → m.valueOf type record i ≠ .ok .null) →
      update m type d table key true record = update m type d table key false record) := by
  refine ⟨fun _ _ => update_eq_ok_iff, fun _ _ => update_eq_error_iff, fun h => ?_⟩
  cases hkey : m.keyValues type table key record with
  | error e => rw [update_of_key_error hkey, update_of_key_error hkey]
  | ok keyArgs => rw [update_of_key_ok hkey, update_of_key_ok hkey, assignments_of_no_null h]

/-! ## A sensor -/

/-- The key of sensors. -/
def sensorKey : Scan.sensorMapping.Index := ⟨0, by decide⟩

theorem ne_null_of_outside_note : ∀ i, noteMapping.OutsideKey [noteKey] i →
    noteMapping.valueOf noteType (noteOf 7 "a" "A" "noon") i ≠ .ok .null := by
  rintro i ⟨hi, hgenerated⟩ hnull
  obtain rfl : i = ⟨1, by decide⟩ := by
    revert i
    decide
  exact absurd (Except.ok.inj hnull) (by simp)

/-- A patch of a sensor leaves out its room, which is NULL, so that the key has the third
placeholder.  The patch of a note with a code is its update. -/
theorem update_writes_by_key_sensor :
    (∃ st assigned, update Scan.sensorMapping (Scan.sensorShape.recordType "Sensor") .postgres
        ⟨"sensors", []⟩ [sensorKey] true Scan.sensor = .ok st ∧
      st.sql = "UPDATE sensors SET \"level\" = $1, \"LEVEL\" = $2 WHERE \"id\" = $3" ∧
      st.args = [.real (Binary.widen 1.5), .text "[true,null]", .integer 7] ∧
      st.Updates (Scan.sensorShape.recordType "Sensor") .postgres ⟨"sensors", []⟩ [sensorKey] true
        Scan.sensor assigned) ∧
    (∀ i, noteMapping.OutsideKey [noteKey] i →
      noteMapping.valueOf noteType (noteOf 7 "a" "A" "noon") i ≠ .ok .null) ∧
    update noteMapping noteType .mysql ⟨"notes", []⟩ [noteKey] true (noteOf 7 "a" "A" "noon") =
      update noteMapping noteType .mysql ⟨"notes", []⟩ [noteKey] false
        (noteOf 7 "a" "A" "noon") := by
  constructor
  · obtain ⟨st, hst, hsql, hargs⟩ : ∃ st, update Scan.sensorMapping
        (Scan.sensorShape.recordType "Sensor") .postgres ⟨"sensors", []⟩ [sensorKey] true
          Scan.sensor = .ok st ∧
        st.sql = "UPDATE sensors SET \"level\" = $1, \"LEVEL\" = $2 WHERE \"id\" = $3" ∧
        st.args = [.real (Binary.widen 1.5), .text "[true,null]", .integer 7] :=
      ⟨_, rfl, by decide +kernel, rfl⟩
    obtain ⟨assigned, hassigned⟩ := ((update_writes_by_key Scan.sensorMapping
      (Scan.sensorShape.recordType "Sensor") .postgres ⟨"sensors", []⟩ [sensorKey]
      Scan.sensor).1 true st).1 hst
    exact ⟨st, assigned, hst, hsql, hargs, hassigned⟩
  · have hnull := ne_null_of_outside_note
    exact ⟨hnull, (update_writes_by_key noteMapping noteType .mysql ⟨"notes", []⟩ [noteKey]
      (noteOf 7 "a" "A" "noon")).2.2 hnull⟩

end Statement
end TableRecords
