import TableRecords.Proofs.Mapping.Columns
import TableRecords.Proofs.Mapping.Paths
import TableRecords.Proofs.Scan.RoundTrip

/-!
# Well-formed mappings

Which tags are accepted, and what the mapping that they declare is like:

    (∃ m, type.mapping = .ok m) ↔ FieldTag.WellFormed type.tags   (mapping_eq_ok_iff_wellFormed)
    type.mapping = .ok m → m.Represents type.tags                              (represents_tags)
-/

namespace TableRecords

open FieldTag (declaredColumns declaredRemainders)

/-! ## Accepted tags -/

/-- Tags that declare a mapping. -/
structure FieldTag.WellFormed (tags : List FieldTag) : Prop where
  /-- Every tag can be read. -/
  reads : ∀ t ∈ tags, ∃ p, Tag.parse t.tag = .ok p
  /-- A field is tagged as a record just when it carries the tags of one. -/
  embeds : ∀ t ∈ tags, ∀ p, Tag.parse t.tag = .ok p → (p.embed = true ↔ t.embedded ≠ none)
  /-- The tags of an embedded record can be read, and name columns. -/
  inner : ∀ t ∈ tags, ∀ inner, t.embedded = some inner → ∀ u ∈ inner, u.IsColumn
  /-- At most one field takes the remainder. -/
  remainder : (declaredRemainders tags).length ≤ 1
  /-- No two columns have one name. -/
  distinct : ((declaredColumns tags).map (·.column)).Nodup
  /-- There is a column. -/
  nonempty : declaredColumns tags ≠ []

namespace Mapping

theorem exists_adds_iff {typeName : String} {fs : List MappedField} {rs : List RemainderField} :
    (∃ m, Mapping.Adds (.empty typeName) fs rs m) ↔
      rs.length ≤ 1 ∧ (fs.map (·.column)).Nodup := by
  rw [← ColumnTables.exists_ofColumns_iff]
  constructor
  · rintro ⟨m, h⟩
    have hremainder : m.remainder.toList = rs := h.remainder
    refine ⟨?_, m.tables, h.tables⟩
    rw [← hremainder]
    cases m.remainder <;> simp
  · rintro ⟨hshort, t, ht⟩
    obtain ⟨r, hr⟩ := exists_toList_eq hshort
    exact ⟨⟨typeName, fs, keyPlaces 0 fs, t, r⟩, rfl, rfl, rfl, ht, hr⟩

end Mapping

theorem FieldTag.wellFormed_iff {tags : List FieldTag} :
    FieldTag.WellFormed tags ↔ (∀ t ∈ tags, t.WellTagged) ∧ (declaredRemainders tags).length ≤ 1 ∧
      ((declaredColumns tags).map (·.column)).Nodup ∧ declaredColumns tags ≠ [] := by
  constructor
  · intro h
    refine ⟨fun t ht => ⟨?_, h.inner t ht⟩, h.remainder, h.distinct, h.nonempty⟩
    obtain ⟨p, hp⟩ := h.reads t ht
    exact ⟨p, hp, h.embeds t ht p hp⟩
  · rintro ⟨hwell, hremainder, hdistinct, hne⟩
    refine ⟨fun t ht => ?_, fun t ht p hp => ?_, fun t ht => (hwell t ht).inner, hremainder,
      hdistinct, hne⟩
    · obtain ⟨p, hp, -⟩ := (hwell t ht).reads
      exact ⟨p, hp⟩
    · exact ((Mapping.wellTagged_iff hp).1 (hwell t ht)).1

/-! ## What a mapping is like -/

/-- A mapping holds what tags say, and nothing else.  Its key list and its tables, which have grown
field by field, say of the fields what a search of all of them would. -/
structure Mapping.Represents (m : Mapping) (tags : List FieldTag) : Prop where
  nonempty : m.fields ≠ []
  distinct : m.columns.Nodup
  /-- The paths of the fields increase, so that none is mapped twice. -/
  sorted : (m.fields.map (·.path)).Pairwise (· < ·)
  /-- The fields are those that the tags declare. -/
  mem_fields_iff : ∀ f, f ∈ m.fields ↔ FieldTag.Maps tags f
  /-- The remainder is the one field that is tagged so. -/
  remainder_iff : ∀ r, m.remainder = some r ↔ FieldTag.Remains tags r
  /-- No field that holds a value is lost: it has a column, or takes the remainder. -/
  addresses_iff : ∀ path, FieldTag.Addresses tags path ↔
    (∃ f ∈ m.fields, f.path = path) ∨ ∃ r, m.remainder = some r ∧ r.path = path
  path_ne_remainder : ∀ f ∈ m.fields, ∀ r, m.remainder = some r → f.path ≠ r.path
  /-- The key list has the places of exactly the fields tagged so, in increasing order. -/
  keys_sorted : m.keys.Pairwise (· < ·)
  mem_keys_iff : ∀ k, k ∈ m.keys ↔ ∃ i : m.Index, i.val = k ∧ (m.field i).primaryKey = true
  /-- The primary key is the key list. -/
  map_primaryKey : m.primaryKey.map Fin.val = m.keys
  primaryKey_sorted : m.primaryKey.Pairwise (· < ·)
  mem_primaryKey_iff : ∀ i, i ∈ m.primaryKey ↔ (m.field i).primaryKey = true
  /-- The one table leads from a column to its place, the other from a column in small letters to the
  first place that it has. -/
  tables_hold : m.tables.Holds m.columns
  /-- A column name leads back to its field. -/
  indexOf?_column : ∀ i, m.indexOf? (m.field i).column = some i

/-! ## Main results -/

variable {ρ : Type}

/-- **A mapping holds what its tags say.** -/
theorem represents_tags {type : RecordType ρ} {m : Mapping} (h : type.mapping = .ok m) :
    m.Represents type.tags := by
  obtain ⟨hwell, hadds, hne⟩ := declared_of_mapping h
  have hfields : m.fields = declaredColumns type.tags := hadds.fields
  have hkeys : m.keys.Pairwise (· < ·) := keys_eq_keyPlaces h ▸ Mapping.sorted_keyPlaces 0 m.fields
  have hmem (k : Nat) : k ∈ m.keys ↔ ∃ i : m.Index, i.val = k ∧ (m.field i).primaryKey = true := by
    rw [keys_eq_keyPlaces h, Mapping.mem_keyPlaces_iff]
  have hprimary := Mapping.map_primaryKey h
  refine
    { nonempty := hfields ▸ hne
      distinct := nodup_columns h
      sorted := sorted_paths h
      mem_fields_iff := fun f => mem_fields_iff h
      remainder_iff := fun r => remainder_eq_some_iff h
      addresses_iff := fun path => ⟨fun haddress => ?_, ?_⟩
      path_ne_remainder := fun f hf r hr =>
        ((mem_fields_iff h).1 hf).path_ne ((remainder_eq_some_iff h).1 hr)
      keys_sorted := hkeys
      mem_keys_iff := hmem
      map_primaryKey := hprimary
      primaryKey_sorted := ?_
      mem_primaryKey_iff := fun i => ?_
      tables_hold := Mapping.holds_tables h
      indexOf?_column := indexOf?_column h }
  · rcases FieldTag.maps_or_remains hwell haddress with ⟨f, hf, rfl⟩ | ⟨r, hr, rfl⟩
    · exact .inl ⟨f, (mem_fields_iff h).2 hf, rfl⟩
    · exact .inr ⟨r, (remainder_eq_some_iff h).2 hr, rfl⟩
  · rintro (⟨f, hf, rfl⟩ | ⟨r, hr, rfl⟩)
    · exact ((mem_fields_iff h).1 hf).addresses hwell
    · exact ((remainder_eq_some_iff h).1 hr).addresses hwell
  · rwa [← hprimary, List.pairwise_map] at hkeys
  · rw [← List.mem_map_of_injective Fin.val_injective, hprimary, hmem]
    exact ⟨fun ⟨j, hj, hkey⟩ => Fin.val_injective hj ▸ hkey, fun hkey => ⟨i, rfl, hkey⟩⟩

open Scan (sensorShape sensorMapping mapping_sensorShape)

theorem represents_tags_sensor :
    (sensorShape.recordType "Sensor").mapping = .ok sensorMapping ∧
      sensorMapping.Represents sensorShape.tags :=
  ⟨mapping_sensorShape, represents_tags mapping_sensorShape⟩

/-- **Tags are accepted just when they are well formed.**  All others are refused as no mapping of
their type. -/
theorem mapping_eq_ok_iff_wellFormed (type : RecordType ρ) :
    ((∃ m, type.mapping = .ok m) ↔ FieldTag.WellFormed type.tags) ∧
      ((∃ reason, type.mapping = .error (.invalidMapping type.typeName reason)) ↔
        ¬ FieldTag.WellFormed type.tags) := by
  have hok : (∃ m, type.mapping = .ok m) ↔ FieldTag.WellFormed type.tags := by
    rw [FieldTag.wellFormed_iff]
    unfold RecordType.mapping Mapping.ofTags
    simp only [mapError_eq_ok_iff, Mapping.build_eq_ok_iff]
    rw [exists_and_left, exists_and_right, Mapping.exists_adds_iff, and_assoc]
  refine ⟨hok, ?_⟩
  rw [← hok]
  unfold RecordType.mapping Mapping.ofTags
  cases Mapping.build type.typeName type.tags with
  | ok m => simp [Except.mapError]
  | error reason => simp [Except.mapError]

end TableRecords
