import TableRecords.Proofs.Statement.Plan

/-!
# The key of a record

A statement finds the row of a record by the columns of its key, none of which may hold zero.  The
columns are looked at one after the other, and the first that cannot be used tells why:

    keyValues = .ok values ↔ the key is assigned, and has these values        (keyValues_eq_ok_iff)
    keyValues = .error e   ↔ `e` is the reason                             (keyValues_eq_error_iff)
-/

namespace TableRecords.Mapping

variable {ρ : Type}

section

variable (m : Mapping) (type : RecordType ρ) (table : Table) (key : List m.Index) (record : ρ)

/-- The field at a place holds a value that is not zero. -/
def Assigned (i : m.Index) : Prop := ∃ v, m.valueOf type record i = .ok v ∧ ¬ v.IsZero

/-- There is a key, and all its columns are assigned. -/
def KeyAssigned : Prop := key ≠ [] ∧ ∀ i ∈ key, m.Assigned type record i

/-- Why the key of a record cannot be used.  All columns in front of the one that is at fault are
assigned. -/
inductive RefusesKey : Error → Prop where
  | noKey (h : key = []) :
    RefusesKey (.invalidMapping m.typeName s!"no primary key declared for table {table.name}")
  | unencoded {before after : List m.Index} {i : m.Index} {e : CoerceError}
    (hkey : key = before ++ i :: after) (hbefore : ∀ j ∈ before, m.Assigned type record j)
    (hi : type.get record (m.field i).path = .error e) :
    RefusesKey (.invalidArgument s!"field {(m.field i).field}: {e.message}")
  | zero {before after : List m.Index} {i : m.Index} {v : Value}
    (hkey : key = before ++ i :: after) (hbefore : ∀ j ∈ before, m.Assigned type record j)
    (hi : m.valueOf type record i = .ok v) (hzero : v.IsZero) :
    RefusesKey (.missingPrimaryKey table.name (m.field i).column)

end

variable {m : Mapping} {type : RecordType ρ} {table : Table} {key : List m.Index} {record : ρ}

theorem valueOf_eq_error_iff {i : m.Index} {e : Error} :
    m.valueOf type record i = .error e ↔ ∃ c, type.get record (m.field i).path = .error c ∧
      e = .invalidArgument s!"field {(m.field i).field}: {c.message}" := by
  rw [valueOf]
  cases type.get record (m.field i).path with
  | error c => simp [Except.mapError, eq_comm]
  | ok v => simp [Except.mapError]

theorem keyValue_eq_ok_iff {i : m.Index} {v : Value} :
    m.keyValue type table record i = .ok v ↔ m.valueOf type record i = .ok v ∧ ¬ v.IsZero := by
  rw [keyValue, bind_eq_ok_iff]
  constructor
  · rintro ⟨w, hw, h⟩
    split at h
    · exact absurd h (by simp)
    · next hzero =>
      obtain rfl := Except.ok.inj h
      exact ⟨hw, by rwa [← Value.isZero_iff]⟩
  · rintro ⟨hv, hzero⟩
    exact ⟨v, hv, if_neg (by rwa [v.isZero_iff])⟩

theorem keyValue_eq_error_iff {i : m.Index} {e : Error} :
    m.keyValue type table record i = .error e ↔ m.valueOf type record i = .error e ∨
      ∃ v, m.valueOf type record i = .ok v ∧ v.IsZero ∧
        e = .missingPrimaryKey table.name (m.field i).column := by
  rw [keyValue, bind_eq_error_iff]
  refine or_congr_right (exists_congr fun v => and_congr_right fun _ => ?_)
  rw [← v.isZero_iff]
  by_cases hzero : v.isZero = true
  · rw [if_pos hzero, Except.error.injEq, and_iff_right hzero]
    exact eq_comm
  · simp [hzero]

theorem exists_keyValue_iff {i : m.Index} :
    (∃ v, m.keyValue type table record i = .ok v) ↔ m.Assigned type record i :=
  exists_congr fun _ => keyValue_eq_ok_iff

/-- **Why the key of a record cannot be used.** -/
theorem keyValues_eq_error_iff {e : Error} :
    m.keyValues type table key record = .error e ↔ m.RefusesKey type table key record e := by
  rw [keyValues]
  by_cases hkey : key = []
  · rw [if_pos (by simpa using hkey)]
    constructor
    · intro h
      obtain rfl := Except.error.inj h
      exact .noKey hkey
    · rintro (_ | ⟨hsplit, -, -⟩ | ⟨hsplit, -, -, -⟩)
      · rfl
      · exact absurd (hkey.symm.trans hsplit) (by simp)
      · exact absurd (hkey.symm.trans hsplit) (by simp)
  · rw [if_neg (by simpa using hkey), mapM_eq_error_iff]
    simp only [exists_keyValue_iff, keyValue_eq_error_iff, valueOf_eq_error_iff]
    constructor
    · rintro ⟨before, i, after, hsplit, hbefore, ⟨c, hi, rfl⟩ | ⟨v, hi, hzero, rfl⟩⟩
      · exact .unencoded hsplit hbefore hi
      · exact .zero hsplit hbefore hi hzero
    · rintro (h | ⟨hsplit, hbefore, hi⟩ | ⟨hsplit, hbefore, hi, hzero⟩)
      · exact absurd h hkey
      · exact ⟨_, _, _, hsplit, hbefore, .inl ⟨_, hi, rfl⟩⟩
      · exact ⟨_, _, _, hsplit, hbefore, .inr ⟨_, hi, hzero, rfl⟩⟩

theorem keyValues_eq_ok_iff {values : List Value} :
    m.keyValues type table key record = .ok values ↔
      m.KeyAssigned type key record ∧ key.map (m.valueOf type record) = values.map .ok := by
  rw [keyValues, KeyAssigned]
  by_cases hkey : key = []
  · simp [hkey]
  · rw [if_neg (by simpa using hkey), and_iff_right hkey]
    constructor
    · intro h
      have hassigned := exists_mapM_eq_ok_iff.1 ⟨values, h⟩
      simp only [exists_keyValue_iff] at hassigned
      exact ⟨hassigned, map_of_mapM_eq_ok h fun _ _ hv => (keyValue_eq_ok_iff.1 hv).1⟩
    · rintro ⟨hassigned, hvalues⟩
      rw [mapM_eq_ok_iff, ← hvalues]
      refine List.map_congr_left fun i hi => ?_
      obtain ⟨v, hv, hzero⟩ := hassigned i hi
      rw [hv, keyValue_eq_ok_iff.2 ⟨hv, hzero⟩]

theorem exists_keyValues_iff :
    (∃ values, m.keyValues type table key record = .ok values) ↔
      m.KeyAssigned type key record := by
  simp only [keyValues_eq_ok_iff]
  constructor
  · rintro ⟨values, hkey, -⟩
    exact hkey
  · intro hkey
    have hvalues : ∀ i ∈ key, ∃ v, m.valueOf type record i = .ok v := by
      intro i hi
      obtain ⟨v, hv, -⟩ := hkey.2 i hi
      exact ⟨v, hv⟩
    obtain ⟨values, hmap⟩ := exists_mapM_eq_ok hvalues
    exact ⟨values, hkey, mapM_eq_ok_iff.1 hmap⟩

end TableRecords.Mapping
