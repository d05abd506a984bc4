import TableRecords.Proofs.Mapping.Declared

/-!
# The paths of a mapping

The fields of a mapping stand in the order of their paths, so no two of them have one path; the
remainder field has a path of its own.  All of these are paths that the tags address:

    type.mapping = .ok m → (m.fields.map (·.path)).Pairwise (· < ·)     (sorted_paths)
    type.mapping = .ok m → FieldTag.Addresses type.tags (m.field i).path (addresses_path)
-/

namespace TableRecords

/-- The paths of the fields that hold a value: those of a record, and those of the records that are
embedded in it. -/
inductive FieldTag.Addresses (tags : List FieldTag) : Path → Prop where
  | plain {i : Nat} {tag : FieldTag} (hi : tags[i]? = some tag) (hplain : tag.embedded = none) :
    Addresses tags [i]
  | inner {i j : Nat} {outer tag : FieldTag} {inner : List FieldTag} (hi : tags[i]? = some outer)
    (houter : outer.embedded = some inner) (hj : inner[j]? = some tag)
    (hplain : tag.embedded = none) : Addresses tags [i, j]

/-! ## Declared paths -/

namespace FieldTag

/-- Columns that are listed field by field stand in the order of their paths if those of one field
do, and those of a field stand in front of those of all later ones. -/
theorem pairwise_flatMap_zipIdx {α : Type} {xs : List α} {columns : α × Nat → List MappedField}
    (hone : ∀ x ∈ xs.zipIdx, ((columns x).map (·.path)).Pairwise (· < ·))
    (hnext : ∀ a b i j, i < j → ∀ f ∈ columns (a, i), ∀ g ∈ columns (b, j), f.path < g.path) :
    ((xs.zipIdx.flatMap columns).map (·.path)).Pairwise (· < ·) := by
  rw [List.map_flatMap, List.pairwise_flatMap]
  refine ⟨hone, ?_⟩
  have hnumbers : xs.zipIdx.Pairwise fun a b => a.2 < b.2 := by
    rw [← List.pairwise_map (f := Prod.snd), List.zipIdx_map_snd]
    exact List.pairwise_lt_range'
  refine hnumbers.imp fun {a b} hlt p hp q hq => ?_
  obtain ⟨f, hf, rfl⟩ := List.mem_map.1 hp
  obtain ⟨g, hg, rfl⟩ := List.mem_map.1 hq
  exact hnext a.1 b.1 a.2 b.2 hlt f hf g hg

theorem path_of_mem_innerColumns {outer : String} {i : Nat} {u : FieldTag × Nat} {f : MappedField}
    (hf : f ∈ u.1.columnAt s!"{outer}.{u.1.field}" [i, u.2]) : f.path = [i, u.2] := by
  obtain ⟨p, -, rfl⟩ := mem_columnAt_iff.1 hf
  rfl

theorem sorted_columnAt (name : String) (path : Path) (t : FieldTag) :
    ((t.columnAt name path).map (·.path)).Pairwise (· < ·) := by
  unfold columnAt
  split <;> simp

theorem sorted_innerColumns (outer : String) (i : Nat) (inner : List FieldTag) :
    ((innerColumns outer i inner).map (·.path)).Pairwise (· < ·) := by
  refine pairwise_flatMap_zipIdx (fun u _ => sorted_columnAt _ _ u.1) ?_
  intro a b j k hjk f hf g hg
  rw [path_of_mem_innerColumns hf, path_of_mem_innerColumns hg]
  exact List.cons_lt_cons_iff.2 (.inr ⟨rfl, List.cons_lt_cons_iff.2 (.inl hjk)⟩)

/-- The columns of field number `i` have paths that begin with `i`. -/
theorem head_path_of_mem_columnsOf {t : FieldTag × Nat} {f : MappedField} (hf : f ∈ columnsOf t) :
    ∃ rest, f.path = t.2 :: rest := by
  obtain ⟨p, -, ⟨-, hf⟩ | ⟨-, -, hf⟩⟩ := mem_columnsOf_iff.1 hf
  · obtain ⟨j, u, -, hf⟩ := mem_innerColumns_iff.1 hf
    obtain ⟨q, -, rfl⟩ := mem_columnAt_iff.1 hf
    exact ⟨[j], rfl⟩
  · obtain ⟨q, -, rfl⟩ := mem_columnAt_iff.1 hf
    exact ⟨[], rfl⟩

theorem sorted_columnsOf (t : FieldTag × Nat) :
    ((columnsOf t).map (·.path)).Pairwise (· < ·) := by
  unfold columnsOf
  split
  · simp
  · split
    · exact sorted_innerColumns _ _ _
    · split
      · simp
      · exact sorted_columnAt _ _ _

theorem sorted_declaredColumns (tags : List FieldTag) :
    ((declaredColumns tags).map (·.path)).Pairwise (· < ·) := by
  refine pairwise_flatMap_zipIdx (fun t _ => sorted_columnsOf t) ?_
  intro a b i j hij f hf g hg
  obtain ⟨rest, hf⟩ := head_path_of_mem_columnsOf hf
  obtain ⟨rest', hg⟩ := head_path_of_mem_columnsOf hg
  rw [hf, hg]
  exact List.cons_lt_cons_iff.2 (.inl hij)

variable {tags : List FieldTag}

/-- The remainder has no column. -/
theorem Maps.path_ne {f : MappedField} {r : RemainderField} (hf : Maps tags f)
    (hr : Remains tags r) : f.path ≠ r.path := by
  obtain ⟨hi, hp, hremainder⟩ := hr
  cases hf with
  | inner => simp
  | plain hi' hp' _ hplain =>
    intro hpath
    obtain rfl := List.singleton_inj.1 hpath
    obtain rfl := Option.some.inj (hi.symm.trans hi')
    obtain rfl := Except.ok.inj (hp.symm.trans hp')
    exact absurd (hremainder.symm.trans hplain) (by simp)

theorem Maps.addresses (hwell : ∀ t ∈ tags, t.WellTagged) {f : MappedField} (hf : Maps tags f) :
    Addresses tags f.path := by
  cases hf with
  | plain hi hp hembed _ =>
    have ht := (Mapping.wellTagged_iff hp).1 (hwell _ (List.mem_of_getElem? hi))
    exact .plain hi (by simpa [hembed] using ht.1)
  | inner hi hp _ hinner hj _ =>
    have ht := (Mapping.wellTagged_iff hp).1 (hwell _ (List.mem_of_getElem? hi))
    exact .inner hi hinner hj (ht.2 _ hinner _ (List.mem_of_getElem? hj)).2

theorem Remains.addresses (hwell : ∀ t ∈ tags, t.WellTagged) {r : RemainderField}
    (hr : Remains tags r) : Addresses tags r.path := by
  obtain ⟨hi, hp, hremainder⟩ := hr
  have ht := (Mapping.wellTagged_iff hp).1 (hwell _ (List.mem_of_getElem? hi))
  exact .plain hi (by simpa [Mapping.embed_of_remainder hp hremainder] using ht.1)

/-- Every field that tags address has a column, or takes the remainder. -/
theorem maps_or_remains (hwell : ∀ t ∈ tags, t.WellTagged)
    {path : Path} (h : Addresses tags path) :
    (∃ f, Maps tags f ∧ f.path = path) ∨ ∃ r, Remains tags r ∧ r.path = path := by
  cases h with
  | @plain i t hi hplain =>
    obtain ⟨p, hp, hembed⟩ := (hwell t (List.mem_of_getElem? hi)).reads
    have hembed : p.embed = false := by simpa [hplain] using hembed
    cases hremainder : p.remainder with
    | true => exact .inr ⟨_, .intro hi hp hremainder, rfl⟩
    | false => exact .inl ⟨_, .plain hi hp hembed hremainder, rfl⟩
  | @inner i j t u inner hi hinner hj _ =>
    have ht := hwell t (List.mem_of_getElem? hi)
    obtain ⟨p, hp, hembed⟩ := ht.reads
    have hembed : p.embed = true := hembed.2 (by simp [hinner])
    obtain ⟨⟨q, hq, -⟩, -⟩ := ht.inner inner hinner u (List.mem_of_getElem? hj)
    exact .inl ⟨_, .inner hi hp hembed hinner hj hq, rfl⟩

end FieldTag

/-! ## Main results -/

variable {ρ : Type} {type : RecordType ρ} {m : Mapping}

theorem sorted_paths (h : type.mapping = .ok m) :
    (m.fields.map (·.path)).Pairwise (· < ·) := by
  have hfields : m.fields = FieldTag.declaredColumns type.tags := (declared_of_mapping h).2.1.fields
  rw [hfields]
  exact FieldTag.sorted_declaredColumns type.tags

/-- Fields with one path are one field. -/
theorem path_inj (h : type.mapping = .ok m) {i j : m.Index}
    (hij : (m.field i).path = (m.field j).path) : i = j := by
  have hnodup : (m.fields.map (·.path)).Nodup := (sorted_paths h).imp fun hlt => hlt.ne
  have hi : i.val < (m.fields.map (·.path)).length := by simp
  have hj : j.val < (m.fields.map (·.path)).length := by simp
  have hget : (m.fields.map (·.path))[i.val] = (m.fields.map (·.path))[j.val] := by
    simpa [Mapping.field] using hij
  exact Fin.ext ((List.getElem_inj hnodup).1 hget)

/-- **The remainder field is no mapped field.** -/
theorem path_ne_remainder (h : type.mapping = .ok m) {r : RemainderField}
    (hr : r ∈ m.remainder) (i : m.Index) : (m.field i).path ≠ r.path :=
  ((mem_fields_iff h).1 (List.get_mem m.fields i)).path_ne ((remainder_eq_some_iff h).1 hr)

theorem addresses_path (h : type.mapping = .ok m) (i : m.Index) :
    FieldTag.Addresses type.tags (m.field i).path :=
  ((mem_fields_iff h).1 (List.get_mem m.fields i)).addresses (declared_of_mapping h).1

theorem addresses_remainder (h : type.mapping = .ok m) {r : RemainderField}
    (hr : r ∈ m.remainder) : FieldTag.Addresses type.tags r.path :=
  ((remainder_eq_some_iff h).1 hr).addresses (declared_of_mapping h).1

end TableRecords
