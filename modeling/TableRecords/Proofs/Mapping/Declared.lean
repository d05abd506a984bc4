import TableRecords.Proofs.Mapping.Modifier
import TableRecords.Proofs.Mapping.Tables

/-!
# The columns that tags declare

Reading the tags of a record type one by one only ever adds columns behind those that are there, and
puts their places into the key list and the tables, so a whole run is told by the columns that its
tags stand for:

    build typeName tags = .ok m ↔
      (∀ t ∈ tags, t.WellTagged) ∧ m holds the columns of `tags` ∧ there is one   (build_eq_ok_iff)

A mapping therefore holds what its tags declare, and nothing else:

    type.mapping = .ok m → (f ∈ m.fields ↔ FieldTag.Maps type.tags f)               (mem_fields_iff)
    type.mapping = .ok m → (m.remainder = some r ↔ FieldTag.Remains type.tags r)
                                                                         (remainder_eq_some_iff)
-/

namespace TableRecords

namespace FieldTag

/-! ## Tags and their columns -/

/-- A field with a column of its own inside of an embedded record. -/
def IsColumn (t : FieldTag) : Prop :=
  (∃ p, Tag.parse t.tag = .ok p ∧ p.embed = false ∧ p.remainder = false) ∧ t.embedded = none

/-- A field that is tagged as what it is: its tag can be read, and says that the field holds a
record just when it does; the fields of that record are columns. -/
structure WellTagged (t : FieldTag) : Prop where
  reads : ∃ p, Tag.parse t.tag = .ok p ∧ (p.embed = true ↔ t.embedded ≠ none)
  inner : ∀ inner, t.embedded = some inner → ∀ u ∈ inner, u.IsColumn

/-- The column that a tag names, for a field with a name and a path. A tag that cannot be read
names none. -/
def columnAt (name : String) (path : Path) (t : FieldTag) : List MappedField :=
  match Tag.parse t.tag with
  | .ok p => [⟨p.column, name, path, p.primaryKey, p.generated⟩]
  | .error _ => []

/-- The columns of the record that is embedded in field number `i`. -/
def innerColumns (outer : String) (i : Nat) (inner : List FieldTag) : List MappedField :=
  inner.zipIdx.flatMap fun u => u.1.columnAt s!"{outer}.{u.1.field}" [i, u.2]

/-- The columns that field number `i` stands for: those of its record, none if it takes the
remainder, or else its own. -/
def columnsOf (t : FieldTag × Nat) : List MappedField :=
  match Tag.parse t.1.tag with
  | .error _ => []
  | .ok p =>
    if p.embed then innerColumns t.1.field t.2 (t.1.embedded.getD [])
    else if p.remainder then []
    else t.1.columnAt t.1.field [t.2]

/-- The remainder that field number `i` takes, if it is tagged so. -/
def remaindersOf (t : FieldTag × Nat) : List RemainderField :=
  match Tag.parse t.1.tag with
  | .error _ => []
  | .ok p => if p.remainder then [⟨t.1.field, [t.2]⟩] else []

/-- The columns that tags declare: that of a field that holds a value, and those of an embedded
record, under the name of the field that holds it. -/
inductive Maps (tags : List FieldTag) : MappedField → Prop where
  | plain {i : Nat} {t : FieldTag} {p : Tag} (hi : tags[i]? = some t)
    (hp : Tag.parse t.tag = .ok p) (hembed : p.embed = false) (hremainder : p.remainder = false) :
    Maps tags ⟨p.column, t.field, [i], p.primaryKey, p.generated⟩
  | inner {i j : Nat} {t u : FieldTag} {p q : Tag} {inner : List FieldTag}
    (hi : tags[i]? = some t) (hp : Tag.parse t.tag = .ok p) (hembed : p.embed = true)
    (hinner : t.embedded = some inner) (hj : inner[j]? = some u) (hq : Tag.parse u.tag = .ok q) :
    Maps tags ⟨q.column, s!"{t.field}.{u.field}", [i, j], q.primaryKey, q.generated⟩

/-- The fields that are tagged as the remainder. -/
inductive Remains (tags : List FieldTag) : RemainderField → Prop where
  | intro {i : Nat} {t : FieldTag} {p : Tag} (hi : tags[i]? = some t)
    (hp : Tag.parse t.tag = .ok p) (hremainder : p.remainder = true) :
    Remains tags ⟨t.field, [i]⟩

/-- All columns that tags declare, in order of declaration. -/
def declaredColumns (tags : List FieldTag) : List MappedField := tags.zipIdx.flatMap columnsOf

/-- All remainder fields that tags declare. -/
def declaredRemainders (tags : List FieldTag) : List RemainderField :=
  tags.zipIdx.flatMap remaindersOf

end FieldTag

open FieldTag

namespace Mapping

/-! ## Adding columns -/

theorem remainder_inj {r r' : Option RemainderField} (h : r.toList = r'.toList) : r = r' := by
  cases r <;> cases r' <;> simp_all

/-- The places of the fields tagged as primary key, where the first field has place number `n`. -/
def keyPlaces (n : Nat) (fs : List MappedField) : List Nat :=
  ((fs.zipIdx n).filter fun f => f.1.primaryKey).map (·.2)

theorem keyPlaces_append (n : Nat) (fs gs : List MappedField) :
    keyPlaces n (fs ++ gs) = keyPlaces n fs ++ keyPlaces (n + fs.length) gs := by
  unfold keyPlaces
  rw [List.zipIdx_append, List.filter_append, List.map_append]

/-- One mapping is another with columns and remainder fields added, and with their places in the key
list and the tables. -/
structure Adds (m : Mapping) (fs : List MappedField) (rs : List RemainderField) (m' : Mapping) :
    Prop where
  typeName : m'.typeName = m.typeName
  fields : m'.fields = m.fields ++ fs
  keys : m'.keys = m.keys ++ keyPlaces m.fields.length fs
  tables : m.tables.addAll m.fields.length (fs.map (·.column)) = some m'.tables
  remainder : m'.remainder.toList = m.remainder.toList ++ rs

/-- What is added says what comes of it. -/
theorem Adds.unique {m m₁ m₂ : Mapping} {fs : List MappedField} {rs : List RemainderField}
    (h₁ : m.Adds fs rs m₁) (h₂ : m.Adds fs rs m₂) : m₁ = m₂ := by
  have htype := h₁.typeName.trans h₂.typeName.symm
  have hfields := h₁.fields.trans h₂.fields.symm
  have hkeys := h₁.keys.trans h₂.keys.symm
  have htables := Option.some.inj (h₁.tables.symm.trans h₂.tables)
  have hremainder := remainder_inj (h₁.remainder.trans h₂.remainder.symm)
  cases m₁
  cases m₂
  simp_all only

theorem adds_self (m : Mapping) : m.Adds [] [] m where
  typeName := rfl
  fields := (List.append_nil _).symm
  keys := (List.append_nil _).symm
  tables := rfl
  remainder := (List.append_nil _).symm

theorem adds_nil_iff {m m' : Mapping} : m.Adds [] [] m' ↔ m' = m := by
  constructor
  · exact fun h => h.unique m.adds_self
  · rintro rfl
    exact m'.adds_self

theorem Adds.trans {m m₁ m' : Mapping} {fs gs : List MappedField} {rs ss : List RemainderField}
    (h : m.Adds fs rs m₁) (h' : m₁.Adds gs ss m') : m.Adds (fs ++ gs) (rs ++ ss) m' := by
  have hlength : m₁.fields.length = m.fields.length + fs.length := by
    rw [h.fields, List.length_append]
  refine ⟨h'.typeName.trans h.typeName, ?_, ?_, ?_, ?_⟩
  · rw [h'.fields, h.fields, List.append_assoc]
  · rw [h'.keys, h.keys, hlength, keyPlaces_append, List.append_assoc]
  · rw [List.map_append, ColumnTables.addAll_append, h.tables, Option.bind_some, List.length_map,
      ← hlength, h'.tables]
  · rw [h'.remainder, h.remainder, List.append_assoc]

theorem exists_toList_eq {α : Type} {xs : List α} (h : xs.length ≤ 1) :
    ∃ x : Option α, x.toList = xs := by
  match xs, h with
  | [], _ => exact ⟨none, rfl⟩
  | [x], _ => exact ⟨some x, rfl⟩

/-- What is added at once can be added in two parts. -/
theorem Adds.split {m m' : Mapping} {fs gs : List MappedField} {rs ss : List RemainderField}
    (h : m.Adds (fs ++ gs) (rs ++ ss) m') : ∃ m₁, m.Adds fs rs m₁ ∧ m₁.Adds gs ss m' := by
  have hshort : (m.remainder.toList ++ rs).length ≤ 1 := by
    have htotal := congrArg List.length h.remainder
    have hone : m'.remainder.toList.length ≤ 1 := by cases m'.remainder <;> simp
    simp only [List.length_append] at htotal ⊢
    omega
  obtain ⟨r, hr⟩ := exists_toList_eq hshort
  have htables := h.tables
  rw [List.map_append, ColumnTables.addAll_append] at htables
  obtain ⟨t, ht, hrest⟩ := Option.bind_eq_some_iff.1 htables
  refine ⟨⟨m.typeName, m.fields ++ fs, m.keys ++ keyPlaces m.fields.length fs, t, r⟩,
    ⟨rfl, rfl, rfl, ht, hr⟩, ⟨h.typeName, ?_, ?_, ?_, ?_⟩⟩
  · rw [h.fields, List.append_assoc]
  · rw [h.keys, keyPlaces_append, List.append_assoc, List.length_append]
  · have hplaced : (fs.map (·.column)).length = fs.length := List.length_map _
    rw [List.length_append, ← hplaced, hrest]
  · rw [h.remainder, hr, List.append_assoc]

theorem adds_append_iff {m m' : Mapping} {fs gs : List MappedField} {rs ss : List RemainderField} :
    m.Adds (fs ++ gs) (rs ++ ss) m' ↔ ∃ m₁, m.Adds fs rs m₁ ∧ m₁.Adds gs ss m' :=
  ⟨Adds.split, fun ⟨_, h, h'⟩ => h.trans h'⟩

/-- A run of steps that each add something adds all of it. -/
theorem foldlM_adds_iff {α : Type} {f : Mapping → α → Except String Mapping} (good : α → Prop)
    (fs : α → List MappedField) (rs : α → List RemainderField)
    (hstep : ∀ m a m', f m a = .ok m' ↔ good a ∧ m.Adds (fs a) (rs a) m') {xs : List α}
    {m m' : Mapping} :
    xs.foldlM f m = .ok m' ↔ (∀ a ∈ xs, good a) ∧ m.Adds (xs.flatMap fs) (xs.flatMap rs) m' := by
  induction xs generalizing m with
  | nil =>
    rw [List.foldlM_nil, List.flatMap_nil, List.flatMap_nil, adds_nil_iff]
    constructor
    · intro h
      exact ⟨by simp, (Except.ok.inj h).symm⟩
    · rintro ⟨-, rfl⟩
      rfl
  | cons x xs ih =>
    rw [List.foldlM_cons, bind_eq_ok_iff, List.flatMap_cons, List.flatMap_cons, adds_append_iff,
      List.forall_mem_cons]
    simp only [hstep, ih]
    constructor
    · rintro ⟨m₁, ⟨hx, hadd⟩, hxs, hrest⟩
      exact ⟨⟨hx, hxs⟩, m₁, hadd, hrest⟩
    · rintro ⟨⟨hx, hxs⟩, m₁, hadd, hrest⟩
      exact ⟨m₁, ⟨hx, hadd⟩, hxs, hrest⟩

theorem keyPlaces_singleton (n : Nat) (f : MappedField) :
    keyPlaces n [f] = if f.primaryKey then [n] else [] := by
  unfold keyPlaces
  cases hkey : f.primaryKey <;> simp [hkey]

theorem adds_of_addField {m m' : Mapping} {f : MappedField} (h : m.addField f = .ok m') :
    m.Adds [f] [] m' := by
  unfold addField at h
  dsimp only at h
  split at h
  · exact absurd h (by simp)
  · next tables htables =>
    obtain rfl := Except.ok.inj h
    refine ⟨rfl, rfl, ?_, ?_, (List.append_nil _).symm⟩
    · rw [keyPlaces_singleton]
      cases f.primaryKey <;> simp
    · exact (ColumnTables.addAll_singleton _ _ _).trans htables

theorem addField_eq_ok_iff {m m' : Mapping} {f : MappedField} :
    m.addField f = .ok m' ↔ m.Adds [f] [] m' := by
  constructor
  · exact adds_of_addField
  · intro h
    have htables := (ColumnTables.addAll_singleton _ _ _).symm.trans h.tables
    obtain ⟨m₁, hm₁⟩ : ∃ m₁, m.addField f = .ok m₁ := by
      unfold addField
      simp only [htables]
      exact ⟨_, rfl⟩
    rw [hm₁, (adds_of_addField hm₁).unique h]

/-! ## Reading the tags -/

theorem forall_mem_zipIdx_iff {α : Type} {P : α → Prop} {xs : List α} :
    (∀ a ∈ xs.zipIdx, P a.1) ↔ ∀ a ∈ xs, P a := by
  constructor
  · intro h a ha
    obtain ⟨i, hi⟩ := List.getElem?_of_mem ha
    exact h (a, i) (List.mem_zipIdx_iff_getElem?.2 hi)
  · intro h a ha
    exact h a.1 (List.mem_of_getElem? (List.mem_zipIdx_iff_getElem?.1 ha))

theorem readTag_eq_ok_iff {name text : String} {p : Tag} :
    readTag name text = .ok p ↔ Tag.parse text = .ok p :=
  mapError_eq_ok_iff

theorem addInner_eq_ok_iff {outer : String} {i : Nat} {m m' : Mapping} {u : FieldTag × Nat} :
    addInner outer i m u = .ok m' ↔
      u.1.IsColumn ∧ m.Adds (u.1.columnAt s!"{outer}.{u.1.field}" [i, u.2]) [] m' := by
  unfold addInner
  rw [bind_eq_ok_iff]
  simp only [readTag_eq_ok_iff]
  constructor
  · rintro ⟨p, hp, h⟩
    split at h
    · exact absurd h (by simp)
    · next hplain =>
      obtain ⟨hembed, hnone⟩ := not_or.1 hplain
      split at h
      · exact absurd h (by simp)
      · next hremainder =>
        refine ⟨⟨⟨p, hp, by simpa using hembed, by simpa using hremainder⟩, by simpa using hnone⟩,
          ?_⟩
        rw [columnAt, hp]
        exact addField_eq_ok_iff.1 h
  · rintro ⟨⟨⟨p, hp, hembed, hremainder⟩, hnone⟩, h⟩
    refine ⟨p, hp, ?_⟩
    rw [if_neg (by simp [hembed, hnone]), if_neg (by simp [hremainder])]
    rw [columnAt, hp] at h
    exact addField_eq_ok_iff.2 h

/-- A whole embedded record is read. -/
theorem addInners_eq_ok_iff {outer : String} {i : Nat} {m m' : Mapping} {inner : List FieldTag} :
    inner.zipIdx.foldlM (addInner outer i) m = .ok m' ↔
      (∀ u ∈ inner, u.IsColumn) ∧ m.Adds (innerColumns outer i inner) [] m' := by
  have hfold : inner.zipIdx.foldlM (addInner outer i) m = .ok m' ↔ _ :=
    foldlM_adds_iff (fun u => u.1.IsColumn)
      (fun u => u.1.columnAt s!"{outer}.{u.1.field}" [i, u.2]) (fun _ => [])
      fun m u m' => addInner_eq_ok_iff
  have hnone : (inner.zipIdx.flatMap fun _ => ([] : List RemainderField)) = [] := by simp
  rwa [forall_mem_zipIdx_iff, hnone] at hfold

/-- A remainder field is added where there is none yet. -/
theorem adds_remainder_iff {m m' : Mapping} {r : RemainderField} :
    m.Adds [] [r] m' ↔ m.remainder = none ∧ m' = { m with remainder := some r } := by
  have hadds (hnone : m.remainder = none) : m.Adds [] [r] { m with remainder := some r } :=
    ⟨rfl, (List.append_nil _).symm, (List.append_nil _).symm, rfl, by simp [hnone]⟩
  constructor
  · intro h
    cases hold : m.remainder with
    | none => exact ⟨rfl, h.unique (hadds hold)⟩
    | some r' =>
      have hlength := congrArg List.length h.remainder
      rw [hold] at hlength
      cases hnew : m'.remainder <;> simp [hnew] at hlength
  · rintro ⟨hnone, rfl⟩
    exact hadds hnone

/-- A tag that takes the remainder says nothing else. -/
theorem embed_of_remainder {text : String} {p : Tag} (h : Tag.parse text = .ok p)
    (hremainder : p.remainder = true) : p.embed = false :=
  Bool.eq_false_iff.2 fun hembed =>
    absurd ((Tag.goTogether_of_parse h).alone hremainder .embed hembed) (by decide)

theorem addTag_of_read {m : Mapping} {t : FieldTag} {i : Nat} {p : Tag}
    (hp : Tag.parse t.tag = .ok p) :
    addTag m (t, i) =
      match p.embed, t.embedded with
      | true, none => .error s!"field {t.field} is tagged embed but is not a record"
      | true, some inner => inner.zipIdx.foldlM (addInner t.field i) m
      | false, some _ => .error s!"field {t.field} carries embedded tags but is not tagged embed"
      | false, none =>
        if p.remainder then
          if m.remainder.isSome then .error "more than one remainder field"
          else .ok { m with remainder := some ⟨t.field, [i]⟩ }
        else m.addField ⟨p.column, t.field, [i], p.primaryKey, p.generated⟩ := by
  unfold addTag
  dsimp only
  rw [readTag_eq_ok_iff.2 hp]
  rfl

theorem not_wellTagged_of_error {t : FieldTag} {e : TagError} (h : Tag.parse t.tag = .error e) :
    ¬ t.WellTagged := by
  rintro ⟨⟨p, hp, -⟩, -⟩
  exact absurd (h.symm.trans hp) (by simp)

theorem wellTagged_iff {t : FieldTag} {p : Tag} (hp : Tag.parse t.tag = .ok p) :
    t.WellTagged ↔ (p.embed = true ↔ t.embedded ≠ none) ∧
      ∀ inner, t.embedded = some inner → ∀ u ∈ inner, u.IsColumn := by
  constructor
  · rintro ⟨⟨q, hq, hembed⟩, hinner⟩
    obtain rfl := Except.ok.inj (hp.symm.trans hq)
    exact ⟨hembed, hinner⟩
  · rintro ⟨hembed, hinner⟩
    exact ⟨⟨p, hp, hembed⟩, hinner⟩

theorem addTag_eq_ok_iff {m m' : Mapping} {t : FieldTag × Nat} :
    addTag m t = .ok m' ↔ t.1.WellTagged ∧ m.Adds (columnsOf t) (remaindersOf t) m' := by
  obtain ⟨t, i⟩ := t
  cases hp : Tag.parse t.tag with
  | error e =>
    have hrefused : readTag t.field t.tag = .error s!"field {t.field}: {e.message}" := by
      rw [readTag, hp]
      rfl
    have herror : addTag m (t, i) = .error s!"field {t.field}: {e.message}" := by
      unfold addTag
      dsimp only
      rw [hrefused]
      rfl
    rw [herror]
    exact ⟨fun h => absurd h (by simp), fun h => absurd h.1 (not_wellTagged_of_error hp)⟩
  | ok p =>
    rw [addTag_of_read hp, wellTagged_iff hp, columnsOf, remaindersOf, hp]
    dsimp only
    cases hembed : p.embed with
    | true =>
      have hremainder : p.remainder = false := by
        by_contra hremainder
        rw [embed_of_remainder hp (by simpa using hremainder)] at hembed
        exact absurd hembed (by simp)
      rw [hremainder]
      cases hinner : t.embedded with
      | none => simp
      | some inner =>
        dsimp only
        rw [addInners_eq_ok_iff]
        simp
    | false =>
      cases hinner : t.embedded with
      | some inner => simp
      | none =>
        cases hremainder : p.remainder with
        | false =>
          rw [columnAt, hp]
          simp [addField_eq_ok_iff]
        | true =>
          cases hold : m.remainder with
          | none => simp [adds_remainder_iff, hold, eq_comm]
          | some r => simp [adds_remainder_iff, hold]

/-- **What tags declare.** -/
theorem build_eq_ok_iff {typeName : String} {tags : List FieldTag} {m : Mapping} :
    build typeName tags = .ok m ↔
      (∀ t ∈ tags, t.WellTagged) ∧
        Mapping.Adds (.empty typeName) (declaredColumns tags) (declaredRemainders tags) m ∧
        declaredColumns tags ≠ [] := by
  have hfold : ∀ m', tags.zipIdx.foldlM addTag (.empty typeName) = .ok m' ↔ _ := fun m' =>
    foldlM_adds_iff (fun t => t.1.WellTagged) columnsOf remaindersOf
      fun m t m' => addTag_eq_ok_iff
  simp only [forall_mem_zipIdx_iff] at hfold
  unfold build
  rw [bind_eq_ok_iff]
  constructor
  · rintro ⟨m', hm', h⟩
    obtain ⟨hwell, hadds⟩ := (hfold m').1 hm'
    split at h
    · exact absurd h (by simp)
    · next hne =>
      obtain rfl := Except.ok.inj h
      refine ⟨hwell, hadds, ?_⟩
      have hfields : m'.fields = declaredColumns tags := hadds.fields
      rwa [hfields, List.isEmpty_iff] at hne
  · rintro ⟨hwell, hadds, hne⟩
    refine ⟨m, (hfold m).2 ⟨hwell, hadds⟩, ?_⟩
    have hfields : m.fields = declaredColumns tags := hadds.fields
    rw [if_neg]
    rwa [hfields, List.isEmpty_iff]

end Mapping

/-! ## What a mapping holds -/

theorem FieldTag.mem_columnAt_iff {name : String} {path : Path} {t : FieldTag} {f : MappedField} :
    f ∈ t.columnAt name path ↔
      ∃ p, Tag.parse t.tag = .ok p ∧ f = ⟨p.column, name, path, p.primaryKey, p.generated⟩ := by
  unfold columnAt
  cases Tag.parse t.tag <;> simp

theorem FieldTag.mem_innerColumns_iff {outer : String} {i : Nat} {inner : List FieldTag}
    {f : MappedField} :
    f ∈ innerColumns outer i inner ↔
      ∃ (j : Nat) (u : FieldTag),
        inner[j]? = some u ∧ f ∈ u.columnAt s!"{outer}.{u.field}" [i, j] := by
  unfold innerColumns
  rw [List.mem_flatMap]
  constructor
  · rintro ⟨⟨u, j⟩, hu, hf⟩
    exact ⟨j, u, List.mem_zipIdx_iff_getElem?.1 hu, hf⟩
  · rintro ⟨j, u, hu, hf⟩
    exact ⟨(u, j), List.mem_zipIdx_iff_getElem?.2 hu, hf⟩

theorem FieldTag.mem_columnsOf_iff {t : FieldTag} {i : Nat} {f : MappedField} :
    f ∈ columnsOf (t, i) ↔ ∃ p, Tag.parse t.tag = .ok p ∧
      ((p.embed = true ∧ f ∈ innerColumns t.field i (t.embedded.getD [])) ∨
        (p.embed = false ∧ p.remainder = false ∧ f ∈ t.columnAt t.field [i])) := by
  unfold columnsOf
  dsimp only
  cases hp : Tag.parse t.tag with
  | error e => simp
  | ok p => cases hembed : p.embed <;> cases hremainder : p.remainder <;> simp [hembed, hremainder]

theorem FieldTag.mem_declaredColumns_iff {tags : List FieldTag} {f : MappedField} :
    f ∈ declaredColumns tags ↔ Maps tags f := by
  unfold declaredColumns
  rw [List.mem_flatMap]
  constructor
  · rintro ⟨⟨t, i⟩, ht, hf⟩
    have hi := List.mem_zipIdx_iff_getElem?.1 ht
    obtain ⟨p, hp, ⟨hembed, hf⟩ | ⟨hembed, hremainder, hf⟩⟩ := mem_columnsOf_iff.1 hf
    · obtain ⟨j, u, hu, hf⟩ := mem_innerColumns_iff.1 hf
      obtain ⟨q, hq, rfl⟩ := mem_columnAt_iff.1 hf
      cases hinner : t.embedded with
      | none => exact absurd hu (by simp [hinner])
      | some inner => exact .inner hi hp hembed hinner (by simpa [hinner] using hu) hq
    · obtain ⟨q, hq, rfl⟩ := mem_columnAt_iff.1 hf
      obtain rfl := Except.ok.inj (hp.symm.trans hq)
      exact .plain hi hp hembed hremainder
  · intro hf
    cases hf with
    | @plain i t p hi hp hembed hremainder =>
      refine ⟨(t, i), List.mem_zipIdx_iff_getElem?.2 hi, mem_columnsOf_iff.2 ⟨p, hp, .inr ?_⟩⟩
      exact ⟨hembed, hremainder, mem_columnAt_iff.2 ⟨p, hp, rfl⟩⟩
    | @inner i j t u p q inner hi hp hembed hinner hj hq =>
      refine ⟨(t, i), List.mem_zipIdx_iff_getElem?.2 hi, mem_columnsOf_iff.2 ⟨p, hp, .inl ?_⟩⟩
      refine ⟨hembed, mem_innerColumns_iff.2 ⟨j, u, ?_, mem_columnAt_iff.2 ⟨q, hq, rfl⟩⟩⟩
      rw [hinner]
      exact hj

theorem FieldTag.mem_declaredRemainders_iff {tags : List FieldTag} {r : RemainderField} :
    r ∈ declaredRemainders tags ↔ Remains tags r := by
  unfold declaredRemainders
  rw [List.mem_flatMap]
  constructor
  · rintro ⟨⟨t, i⟩, ht, hr⟩
    have hi := List.mem_zipIdx_iff_getElem?.1 ht
    unfold remaindersOf at hr
    dsimp only at hr
    cases hp : Tag.parse t.tag with
    | error e => simp [hp] at hr
    | ok p =>
      cases hremainder : p.remainder with
      | false => simp [hp, hremainder] at hr
      | true =>
        obtain rfl : r = ⟨t.field, [i]⟩ := by simpa [hp, hremainder] using hr
        exact .intro hi hp hremainder
  · rintro ⟨hi, hp, hremainder⟩
    refine ⟨(_, _), List.mem_zipIdx_iff_getElem?.2 hi, ?_⟩
    simp [remaindersOf, hp, hremainder]

/-! ## Mappings of record types -/

variable {ρ : Type} {type : RecordType ρ} {m : Mapping}

/-- A mapping holds the columns that its tags declare. -/
theorem Mapping.declared_of_ofTags {typeName : String} {tags : List FieldTag}
    (h : Mapping.ofTags typeName tags = .ok m) :
    (∀ t ∈ tags, t.WellTagged) ∧
      Mapping.Adds (.empty typeName) (declaredColumns tags) (declaredRemainders tags) m ∧
      declaredColumns tags ≠ [] := by
  unfold Mapping.ofTags at h
  rwa [mapError_eq_ok_iff, Mapping.build_eq_ok_iff] at h

/-- A mapping holds the columns that the tags of its type declare. -/
theorem declared_of_mapping (h : type.mapping = .ok m) :
    (∀ t ∈ type.tags, t.WellTagged) ∧
      Mapping.Adds (.empty type.typeName) (declaredColumns type.tags)
        (declaredRemainders type.tags) m ∧ declaredColumns type.tags ≠ [] :=
  Mapping.declared_of_ofTags h

theorem mem_fields_iff (h : type.mapping = .ok m) {f : MappedField} :
    f ∈ m.fields ↔ FieldTag.Maps type.tags f := by
  have hfields : m.fields = declaredColumns type.tags := (declared_of_mapping h).2.1.fields
  rw [hfields, mem_declaredColumns_iff]

theorem remainder_eq_some_iff (h : type.mapping = .ok m) {r : RemainderField} :
    m.remainder = some r ↔ FieldTag.Remains type.tags r := by
  have hremainder : m.remainder.toList = declaredRemainders type.tags :=
    (declared_of_mapping h).2.1.remainder
  rw [← mem_declaredRemainders_iff, ← hremainder, Option.mem_toList]

end TableRecords
