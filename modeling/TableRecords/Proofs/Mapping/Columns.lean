import TableRecords.Proofs.Mapping.Declared

/-!
# The columns of a mapping

The tables and the key list of a mapping that tags declare say what a search of its fields would
find.  No two of its fields share a column, so a column name leads back to its field:

    type.mapping = .ok m → ColumnTables.ofColumns m.columns = some m.tables   (ofColumns_columns)
    type.mapping = .ok m → m.keys = Mapping.keyPlaces 0 m.fields              (keys_eq_keyPlaces)
    type.mapping = .ok m → m.columns.Nodup                                    (nodup_columns)
    type.mapping = .ok m → m.indexOf? (m.field i).column = some i             (indexOf?_column)
-/

namespace TableRecords

namespace Mapping

/-- All columns are those at all places. -/
theorem columnsAt_indexes (m : Mapping) : m.columnsAt m.indexes = m.columns := by
  have hget : m.indexes.map m.field = m.fields := List.map_get_finRange m.fields
  rw [columns, ← hget, List.map_map]
  rfl

variable {m : Mapping}

theorem mem_columns_iff {c : String} : c ∈ m.columns ↔ ∃ i : m.Index, (m.field i).column = c := by
  rw [← columnsAt_indexes, columnsAt, List.mem_map]
  simp [indexes]

/-- Columns that are spelled as mapped ones are those at some places. -/
theorem exists_columnsAt {cs : List String} (h : ∀ c ∈ cs, c ∈ m.columns) :
    ∃ is : List m.Index, m.columnsAt is = cs := by
  induction cs with
  | nil => exact ⟨[], rfl⟩
  | cons c cs ih =>
    obtain ⟨i, rfl⟩ := mem_columns_iff.1 (h c List.mem_cons_self)
    obtain ⟨is, rfl⟩ := ih fun c' hc => h c' (List.mem_cons_of_mem _ hc)
    exact ⟨i :: is, rfl⟩

@[simp]
theorem index?_val (m : Mapping) (i : m.Index) : m.index? i.val = some i := by
  rw [index?, dif_pos i.isLt]

theorem find?_indexes_eq_some_iff {p : m.Index → Bool} {i : m.Index} :
    m.indexes.find? p = some i ↔ p i = true ∧ ∀ j < i, p j = false := by
  rw [List.find?_eq_some_iff_getElem]
  simp only [indexes, List.getElem_finRange, List.length_finRange, Bool.not_eq_true']
  constructor
  · rintro ⟨hi, k, hk, rfl, hbefore⟩
    exact ⟨hi, fun j hj => hbefore j.val hj⟩
  · rintro ⟨hi, hbefore⟩
    exact ⟨hi, i.val, i.isLt, rfl, fun j hj => hbefore ⟨j, hj.trans i.isLt⟩ hj⟩

theorem find?_indexes_eq_findIdx? (p : String → Bool) :
    (m.indexes.find? fun i => p (m.field i).column).map Fin.val = m.columns.findIdx? p := by
  ext k
  rw [Option.map_eq_some_iff, List.findIdx?_eq_some_iff_getElem]
  simp only [find?_indexes_eq_some_iff, columns, List.length_map, List.getElem_map,
    Bool.not_eq_true]
  constructor
  · rintro ⟨i, ⟨hi, hbefore⟩, rfl⟩
    exact ⟨i.isLt, hi, fun j hj => hbefore ⟨j, hj.trans i.isLt⟩ hj⟩
  · rintro ⟨hk, hi, hbefore⟩
    exact ⟨⟨k, hk⟩, ⟨hi, fun j hj => hbefore j.val hj⟩, rfl⟩

/-! ## Key lists -/

/-- The places of keys are those of the fields that are tagged so. -/
theorem mem_keyPlaces_iff {k : Nat} :
    k ∈ keyPlaces 0 m.fields ↔ ∃ i : m.Index, i.val = k ∧ (m.field i).primaryKey = true := by
  simp only [keyPlaces, List.mem_map, List.mem_filter, Prod.exists, List.mem_zipIdx_iff_getElem?]
  constructor
  · rintro ⟨f, i, ⟨hf, hkey⟩, rfl⟩
    obtain ⟨hi, rfl⟩ := List.getElem?_eq_some_iff.1 hf
    exact ⟨⟨i, hi⟩, rfl, hkey⟩
  · rintro ⟨i, rfl, hkey⟩
    exact ⟨m.field i, i, ⟨List.getElem?_eq_getElem i.isLt, hkey⟩, rfl⟩

theorem sorted_keyPlaces (n : Nat) (fs : List MappedField) : (keyPlaces n fs).Pairwise (· < ·) := by
  have hsorted : (fs.zipIdx n).Pairwise fun a b => a.2 < b.2 := by
    rw [← List.pairwise_map (f := Prod.snd), List.zipIdx_map_snd]
    exact List.pairwise_lt_range'
  exact List.pairwise_map.2 (hsorted.filter _)

end Mapping

variable {ρ : Type} {type : RecordType ρ} {m : Mapping}

namespace Mapping

variable {typeName : String} {tags : List FieldTag}

/-! ## Mappings that tags declare -/

/-- The tables are those of the columns. -/
theorem ofColumns_columns_of_ofTags (h : Mapping.ofTags typeName tags = .ok m) :
    ColumnTables.ofColumns m.columns = some m.tables := by
  have hadds := (Mapping.declared_of_ofTags h).2.1
  have hfields : m.fields = FieldTag.declaredColumns tags := hadds.fields
  rw [columns, hfields]
  exact hadds.tables

/-- The key list has the places of the key fields. -/
theorem keys_eq_keyPlaces_of_ofTags (h : Mapping.ofTags typeName tags = .ok m) :
    m.keys = keyPlaces 0 m.fields := by
  have hadds := (Mapping.declared_of_ofTags h).2.1
  have hfields : m.fields = FieldTag.declaredColumns tags := hadds.fields
  rw [hfields]
  exact hadds.keys

theorem columns_nodup (h : Mapping.ofTags typeName tags = .ok m) : m.columns.Nodup :=
  (ColumnTables.holds_of_ofColumns (ofColumns_columns_of_ofTags h)).1

/-- What the tables hold is what a search of the columns finds. -/
theorem holds_tables (h : Mapping.ofTags typeName tags = .ok m) : m.tables.Holds m.columns :=
  (ColumnTables.holds_of_ofColumns (ofColumns_columns_of_ofTags h)).2

/-- Places with one column are one place. -/
theorem column_injective (h : Mapping.ofTags typeName tags = .ok m) :
    Function.Injective fun i : m.Index => (m.field i).column := by
  intro i j hij
  have hi : i.val < m.columns.length := by simp [columns]
  have hj : j.val < m.columns.length := by simp [columns]
  have hget : m.columns[i.val] = m.columns[j.val] := by
    simpa [columns, Mapping.field] using hij
  exact Fin.ext ((List.getElem_inj (columns_nodup h)).1 hget)

/-- The place in the tables is that of the column that is spelled so, or else of the first one that
differs in letter case only. -/
theorem place?_tables (h : Mapping.ofTags typeName tags = .ok m) (name : String) :
    m.tables.place? name = ((m.indexes.find? fun i => (m.field i).column == name).or
      (m.indexes.find? fun i => Text.sameIgnoringCase (m.field i).column name)).map Fin.val := by
  rw [ColumnTables.place?, (holds_tables h).exact, (holds_tables h).folded, Option.map_or,
    ← find?_indexes_eq_findIdx?, ← find?_indexes_eq_findIdx?]
  rfl

/-- A field is found as a search of all fields would find it. -/
theorem indexOf?_eq (h : Mapping.ofTags typeName tags = .ok m) (name : String) :
    m.indexOf? name = (m.indexes.find? fun i => (m.field i).column == name).or
      (m.indexes.find? fun i => Text.sameIgnoringCase (m.field i).column name) := by
  rw [indexOf?, place?_tables h, Option.bind_map]
  exact (Option.bind_congr fun i _ => m.index?_val i).trans (Option.bind_fun_some _)

/-- No place of the tables is lost. -/
theorem map_indexOf? (h : Mapping.ofTags typeName tags = .ok m) (name : String) :
    m.tables.place? name = (m.indexOf? name).map Fin.val := by
  rw [indexOf?_eq h, place?_tables h]

/-- No place of the key list is lost. -/
theorem map_primaryKey (h : Mapping.ofTags typeName tags = .ok m) :
    m.primaryKey.map Fin.val = m.keys := by
  have hplace : ∀ k ∈ m.keys, (m.index? k).map Fin.val = some k := by
    intro k hk
    rw [keys_eq_keyPlaces_of_ofTags h] at hk
    obtain ⟨i, rfl, -⟩ := mem_keyPlaces_iff.1 hk
    rw [index?_val, Option.map_some]
  rw [primaryKey, List.map_filterMap, List.filterMap_congr hplace, List.filterMap_some]

/-- A name belongs to no field if no column is spelled so in any letter case. -/
theorem indexOf?_eq_none_iff (h : Mapping.ofTags typeName tags = .ok m) (name : String) :
    m.indexOf? name = none ↔ ∀ i, Text.sameIgnoringCase (m.field i).column name = false := by
  rw [indexOf?_eq h, Option.or_eq_none_iff, List.find?_eq_none, List.find?_eq_none]
  simp only [indexes, List.mem_finRange, true_implies, Bool.not_eq_true]
  refine and_iff_right_of_imp fun hnone i => Bool.eq_false_iff.2 fun heq => ?_
  -- A column that is spelled exactly so is spelled so in any letter case.
  have hsame : Text.sameIgnoringCase (m.field i).column name = true := by
    rw [eq_of_beq heq]
    exact beq_self_eq_true _
  exact absurd (hnone i) (by simp [hsame])

end Mapping

theorem ofColumns_columns (h : type.mapping = .ok m) :
    ColumnTables.ofColumns m.columns = some m.tables :=
  Mapping.ofColumns_columns_of_ofTags h

theorem keys_eq_keyPlaces (h : type.mapping = .ok m) : m.keys = Mapping.keyPlaces 0 m.fields :=
  Mapping.keys_eq_keyPlaces_of_ofTags h

theorem nodup_columns (h : type.mapping = .ok m) : m.columns.Nodup := Mapping.columns_nodup h

/-- Fields with one column are one field. -/
theorem field_inj (h : type.mapping = .ok m) {i j : m.Index}
    (hij : (m.field i).column = (m.field j).column) : i = j :=
  Mapping.column_injective h hij

/-- **A column name leads back to its field.** -/
theorem indexOf?_column (h : type.mapping = .ok m) (i : m.Index) :
    m.indexOf? (m.field i).column = some i := by
  have hfind : (m.indexes.find? fun j => (m.field j).column == (m.field i).column) = some i := by
    rw [Mapping.find?_indexes_eq_some_iff]
    refine ⟨beq_self_eq_true _, fun j hj => beq_eq_false_iff_ne.2 fun heq => ?_⟩
    exact hj.ne (field_inj h heq)
  rw [Mapping.indexOf?_eq h, hfind, Option.some_or]

theorem filterMap_columnsAt (h : type.mapping = .ok m) (is : List m.Index) :
    (m.columnsAt is).filterMap m.indexOf? = is := by
  rw [Mapping.columnsAt, List.filterMap_map]
  exact (List.filterMap_congr fun i _ => indexOf?_column h i).trans List.filterMap_some

end TableRecords
