import TableRecords.Proofs.Record.Fields
import TableRecords.Statement.Insert

/-!
# What an insert writes and what it leaves to the database

The insert of a record leaves a field to the database if it is generated, or if it belongs to the
key and holds zero (`Mapping.Pending`).  The plan of an insert takes one place after the other
(`ofIndexes_cons_eq_ok`), so it writes the fields that are not pending and reads the others back:

    ofIndexes m type key record is = .ok plan →
      (i ∈ plan.columns ↔ i ∈ is ∧ ¬ m.Pending type key record i) ∧
      (i ∈ plan.readBack ↔ i ∈ is ∧ m.Pending type key record i)                 (mem_iff)

An insert fails if a field that it may write cannot be encoded, or else if it writes none:

    ofRecord_divides
-/

namespace TableRecords

variable {ρ : Type}

/-! ## Pending fields -/

/-- NULL, or the zero of a kind. -/
inductive Value.IsZero : Value → Prop
  | null : IsZero .null
  | integer : IsZero (.integer 0)
  | real {x : Float} (hx : (x == 0) = true) : IsZero (.real x)
  | text : IsZero (.text "")
  | blob : IsZero (.blob ByteArray.empty)

theorem Value.isZero_iff (v : Value) : v.isZero = true ↔ v.IsZero := by
  constructor
  · intro h
    cases v with
    | null => exact .null
    | integer n =>
      obtain rfl : n = 0 := by simpa [isZero] using h
      exact .integer
    | real x => exact .real h
    | text s =>
      obtain rfl : s = "" := by simpa [isZero] using h
      exact .text
    | blob bytes =>
      obtain rfl : bytes = ByteArray.empty := by simpa [isZero, ByteArray.isEmpty] using h
      exact .blob
  · intro h
    cases h with
    | real hx => exact hx
    | _ => rfl

namespace Mapping

/-- The field at a place is left to the database: it is generated, or a field of the key that holds
zero. -/
def Pending (m : Mapping) (type : RecordType ρ) (key : List m.Index) (record : ρ) (i : m.Index) :
    Prop :=
  (m.field i).generated = true ∨ i ∈ key ∧ ∃ v, m.valueOf type record i = .ok v ∧ v.IsZero

/-- All fields that can be written are encoded. -/
def Encodes (m : Mapping) (type : RecordType ρ) (record : ρ) : Prop :=
  ∀ i, (m.field i).generated = false → ∃ v, type.get record (m.field i).path = .ok v

/-- The field at a place can be written, and is the first one that cannot be encoded. -/
structure FirstUnencoded (m : Mapping) (type : RecordType ρ) (record : ρ) (i : m.Index)
    (e : CoerceError) : Prop where
  not_generated : (m.field i).generated = false
  refused : type.get record (m.field i).path = .error e
  first : ∀ j < i, (m.field j).generated = false →
    ∃ v, type.get record (m.field j).path = .ok v

variable {m : Mapping} {type : RecordType ρ} {key : List m.Index} {record : ρ}

theorem valueOf_eq_ok_iff {i : m.Index} {v : Value} :
    m.valueOf type record i = .ok v ↔ type.get record (m.field i).path = .ok v :=
  mapError_eq_ok_iff

theorem valueOf_of_error {i : m.Index} {e : CoerceError}
    (h : type.get record (m.field i).path = .error e) :
    m.valueOf type record i =
      .error (.invalidArgument s!"field {(m.field i).field}: {e.message}") := by
  rw [valueOf, h]
  rfl

theorem pending_iff_of_value {i : m.Index} {v : Value}
    (hgenerated : (m.field i).generated = false) (hv : m.valueOf type record i = .ok v) :
    m.Pending type key record i ↔ i ∈ key ∧ v.isZero = true := by
  unfold Pending
  rw [hgenerated, v.isZero_iff]
  constructor
  · rintro (h | ⟨hi, w, hw, hzero⟩)
    · exact absurd h (by simp)
    · obtain rfl := Except.ok.inj (hv.symm.trans hw)
      exact ⟨hi, hzero⟩
  · rintro ⟨hi, hzero⟩
    exact .inr ⟨hi, v, hv, hzero⟩

theorem not_encodes_iff : ¬ m.Encodes type record ↔
    ∃ i e, (m.field i).generated = false ∧ type.get record (m.field i).path = .error e := by
  constructor
  · intro h
    unfold Encodes at h
    push Not at h
    obtain ⟨i, hgenerated, hnone⟩ := h
    cases hget : type.get record (m.field i).path with
    | ok v => exact absurd hget (hnone v)
    | error e => exact ⟨i, e, hgenerated, hget⟩
  · rintro ⟨i, e, hgenerated, hi⟩ h
    obtain ⟨v, hv⟩ := h i hgenerated
    exact absurd (hi.symm.trans hv) (by simp)

/-- If a field that can be written cannot be encoded, there is a first one. -/
theorem exists_firstUnencoded {i : m.Index} {e : CoerceError}
    (hgenerated : (m.field i).generated = false)
    (hi : type.get record (m.field i).path = .error e) :
    ∃ j e', m.FirstUnencoded type record j e' := by
  induction hn : i.val using Nat.strongRecOn generalizing i e with
  | ind n ih =>
    by_cases hfirst : ∀ j < i, (m.field j).generated = false →
        ∃ v, type.get record (m.field j).path = .ok v
    · exact ⟨i, e, hgenerated, hi, hfirst⟩
    · push Not at hfirst
      obtain ⟨j, hj, hwritten, hnone⟩ := hfirst
      cases hget : type.get record (m.field j).path with
      | ok v => exact absurd hget (hnone v)
      | error e' => exact ih j.val (hn ▸ hj) hwritten hget rfl

end Mapping

/-! ## Plans -/

namespace InsertPlan

variable {m : Mapping} {type : RecordType ρ} {key is : List m.Index} {record : ρ}
  {plan : InsertPlan m}

/-- **One step of a plan**: a pending field is read back, and any other is written with its
value. -/
theorem ofIndexes_cons_eq_ok {i : m.Index}
    (h : ofIndexes m type key record (i :: is) = .ok plan) :
    ∃ more, ofIndexes m type key record is = .ok more ∧
      ((m.Pending type key record i ∧ plan = ⟨more.written, i :: more.readBack⟩) ∨
        (¬ m.Pending type key record i ∧ ∃ v, m.valueOf type record i = .ok v ∧
          plan = ⟨(i, v) :: more.written, more.readBack⟩)) := by
  rw [ofIndexes] at h
  split at h
  · next hgenerated =>
    obtain ⟨more, hmore, h⟩ := bind_eq_ok_iff.1 h
    exact ⟨more, hmore, .inl ⟨.inl hgenerated, (Except.ok.inj h).symm⟩⟩
  · next hgenerated =>
    obtain ⟨v, hv, h⟩ := bind_eq_ok_iff.1 h
    obtain ⟨more, hmore, h⟩ := bind_eq_ok_iff.1 h
    have hpending : m.Pending type key record i ↔ i ∈ key ∧ v.isZero = true :=
      Mapping.pending_iff_of_value (by simpa using hgenerated) hv
    refine ⟨more, hmore, ?_⟩
    split at h
    · next hzero => exact .inl ⟨hpending.2 hzero, (Except.ok.inj h).symm⟩
    · next hzero => exact .inr ⟨fun hp => hzero (hpending.1 hp), v, hv, (Except.ok.inj h).symm⟩

/-- A plan writes what is not pending, and reads back what is. -/
theorem mem_iff (h : ofIndexes m type key record is = .ok plan) (i : m.Index) :
    (i ∈ plan.columns ↔ i ∈ is ∧ ¬ m.Pending type key record i) ∧
      (i ∈ plan.readBack ↔ i ∈ is ∧ m.Pending type key record i) := by
  induction is generalizing plan with
  | nil =>
    obtain rfl := Except.ok.inj h
    simp [columns]
  | cons j is ih =>
    obtain ⟨more, hmore, ⟨hj, rfl⟩ | ⟨hj, v, -, rfl⟩⟩ := ofIndexes_cons_eq_ok h
    · obtain ⟨hcolumns, hreadBack⟩ := ih hmore
      have hij : i = j → m.Pending type key record i := fun hij => hij ▸ hj
      constructor
      · show i ∈ more.columns ↔ _
        rw [hcolumns, List.mem_cons]
        tauto
      · rw [List.mem_cons, List.mem_cons, hreadBack]
        tauto
    · obtain ⟨hcolumns, hreadBack⟩ := ih hmore
      have hij : i = j → ¬ m.Pending type key record i := fun hij => hij ▸ hj
      constructor
      · show i ∈ j :: more.columns ↔ _
        rw [List.mem_cons, List.mem_cons, hcolumns]
        tauto
      · rw [List.mem_cons, hreadBack]
        tauto

/-- A plan keeps the order of the places, and writes each field with its own value. -/
theorem sublist_of_eq_ok (h : ofIndexes m type key record is = .ok plan) :
    plan.columns.Sublist is ∧ plan.readBack.Sublist is ∧
      plan.columns.map (m.valueOf type record) = plan.written.map fun p => .ok p.2 := by
  induction is generalizing plan with
  | nil =>
    obtain rfl := Except.ok.inj h
    exact ⟨List.Sublist.refl [], List.Sublist.refl [], rfl⟩
  | cons i is ih =>
    obtain ⟨more, hmore, ⟨-, rfl⟩ | ⟨-, v, hv, rfl⟩⟩ := ofIndexes_cons_eq_ok h
    · obtain ⟨hcolumns, hreadBack, hvalues⟩ := ih hmore
      exact ⟨hcolumns.cons i, hreadBack.cons_cons i, hvalues⟩
    · obtain ⟨hcolumns, hreadBack, hvalues⟩ := ih hmore
      refine ⟨hcolumns.cons_cons i, hreadBack.cons i, ?_⟩
      show m.valueOf type record i :: more.columns.map (m.valueOf type record) = _
      rw [hv, hvalues]
      rfl

/-- Each value is that of its own field. -/
theorem valueOf_of_mem_written (h : ofIndexes m type key record is = .ok plan)
    {p : m.Index × Value} (hp : p ∈ plan.written) : m.valueOf type record p.1 = .ok p.2 := by
  have hvalues := (sublist_of_eq_ok h).2.2
  rw [columns, List.map_map] at hvalues
  exact List.map_eq_map_iff.1 hvalues p hp

/-- Records with the same pending fields are planned alike. -/
theorem alike_of_pending_iff {record' : ρ} {plan' : InsertPlan m}
    (hpending : ∀ i ∈ is, m.Pending type key record i ↔ m.Pending type key record' i)
    (h : ofIndexes m type key record is = .ok plan)
    (h' : ofIndexes m type key record' is = .ok plan') :
    plan.columns = plan'.columns ∧ plan.readBack = plan'.readBack := by
  induction is generalizing plan plan' with
  | nil =>
    obtain rfl := Except.ok.inj h
    obtain rfl := Except.ok.inj h'
    exact ⟨rfl, rfl⟩
  | cons i is ih =>
    have hi := hpending i List.mem_cons_self
    have ih {more more'} := @ih more more' fun j hj => hpending j (List.mem_cons_of_mem i hj)
    obtain ⟨more, hmore, ⟨hread, rfl⟩ | ⟨hwritten, v, -, rfl⟩⟩ := ofIndexes_cons_eq_ok h <;>
      obtain ⟨more', hmore', ⟨hread', rfl⟩ | ⟨hwritten', v', -, rfl⟩⟩ := ofIndexes_cons_eq_ok h'
    · obtain ⟨hcolumns, hreadBack⟩ := ih hmore hmore'
      exact ⟨hcolumns, congrArg (i :: ·) hreadBack⟩
    · exact absurd (hi.1 hread) hwritten'
    · exact absurd (hi.2 hread') hwritten
    · obtain ⟨hcolumns, hreadBack⟩ := ih hmore hmore'
      exact ⟨congrArg (i :: ·) hcolumns, hreadBack⟩

/-- If all fields that can be written are encoded, there is a plan. -/
theorem exists_ofIndexes_eq_ok
    (h : ∀ i ∈ is, (m.field i).generated = false →
      ∃ v, type.get record (m.field i).path = .ok v) :
    ∃ plan, ofIndexes m type key record is = .ok plan := by
  induction is with
  | nil => exact ⟨_, rfl⟩
  | cons i is ih =>
    obtain ⟨more, hmore⟩ := ih fun j hj => h j (List.mem_cons_of_mem i hj)
    rw [ofIndexes, hmore]
    by_cases hgenerated : (m.field i).generated = true
    · rw [if_pos hgenerated]
      exact ⟨_, rfl⟩
    · obtain ⟨v, hv⟩ := h i List.mem_cons_self (by simpa using hgenerated)
      rw [if_neg hgenerated, Mapping.valueOf_eq_ok_iff.2 hv]
      by_cases hzero : i ∈ key ∧ v.isZero = true
      · exact ⟨_, if_pos hzero⟩
      · exact ⟨_, if_neg hzero⟩

/-- The first field that cannot be encoded fails the plan. -/
theorem ofIndexes_of_first_error {before after : List m.Index} {i : m.Index} {e : CoerceError}
    (hbefore : ∀ j ∈ before, (m.field j).generated = false →
      ∃ v, type.get record (m.field j).path = .ok v)
    (hgenerated : (m.field i).generated = false)
    (hi : type.get record (m.field i).path = .error e) :
    ofIndexes m type key record (before ++ i :: after) =
      .error (.invalidArgument s!"field {(m.field i).field}: {e.message}") := by
  induction before with
  | nil =>
    rw [List.nil_append, ofIndexes, if_neg (by simp [hgenerated]), Mapping.valueOf_of_error hi]
    rfl
  | cons j before ih =>
    have hrest := ih fun k hk => hbefore k (List.mem_cons_of_mem j hk)
    rw [List.cons_append, ofIndexes, hrest]
    by_cases hj : (m.field j).generated = true
    · rw [if_pos hj]
      rfl
    · obtain ⟨v, hv⟩ := hbefore j List.mem_cons_self (by simpa using hj)
      rw [if_neg hj, Mapping.valueOf_eq_ok_iff.2 hv]
      rfl

theorem ofRecord_of_firstUnencoded {i : m.Index} {e : CoerceError}
    (h : m.FirstUnencoded type record i e) :
    ofRecord m type key record =
      .error (.invalidArgument s!"field {(m.field i).field}: {e.message}") := by
  have hsorted : m.indexes.Pairwise (· < ·) := List.pairwise_lt_finRange _
  obtain ⟨before, after, hsplit⟩ := List.append_of_mem (List.mem_finRange i)
  have hindexes : m.indexes = before ++ i :: after := hsplit
  rw [hindexes, List.pairwise_append] at hsorted
  rw [ofRecord, hindexes]
  refine ofIndexes_of_first_error (fun j hj => h.first j ?_) h.not_generated h.refused
  exact hsorted.2.2 j hj i List.mem_cons_self

end InsertPlan

/-! ## Inserts -/

/-- An insert divides the columns that tags declare: those at the places `written` are written, and
all others are read back. -/
structure InsertStatement.Divides {m : Mapping} (tags : List FieldTag) (type : RecordType ρ)
    (key : List m.Index) (record : ρ) (written : List m.Index) (st : InsertStatement m) :
    Prop where
  columns : st.columns = m.columnsAt written
  /-- Each column is written with the value that its own field holds. -/
  args : written.map (m.valueOf type record) = st.args.map .ok
  mem_written_iff : ∀ i, i ∈ written ↔ ¬ m.Pending type key record i
  mem_readBack_iff : ∀ i, i ∈ st.readBack ↔ m.Pending type key record i
  /-- Both lists keep the order of declaration. -/
  written_sorted : written.Pairwise (· < ·)
  readBack_sorted : st.readBack.Pairwise (· < ·)
  /-- Every declared column is in one of the lists, and nothing else is. -/
  maps_iff : ∀ f, FieldTag.Maps tags f ↔ ∃ i, (i ∈ written ∨ i ∈ st.readBack) ∧ m.field i = f
  /-- No field that takes the remainder or holds a record is in one of them. -/
  path_ne : ∀ k t p, tags[k]? = some t → Tag.parse t.tag = .ok p →
    p.remainder = true ∨ p.embed = true → ∀ i, i ∈ written ∨ i ∈ st.readBack →
      (m.field i).path ≠ [k]

namespace InsertStatement

variable {m : Mapping} {type : RecordType ρ} {key : List m.Index} {record : ρ} {d : Dialect}
  {table : Table}

theorem ofRecord_eq_ok_iff {record : ρ} {st : InsertStatement m} :
    ofRecord m type d table key record = .ok st ↔
      ∃ plan, InsertPlan.ofRecord m type key record = .ok plan ∧ plan.written ≠ [] ∧
        st = ofPlans d table plan [plan] := by
  unfold ofRecord
  rw [bind_eq_ok_iff]
  refine exists_congr fun plan => and_congr_right fun _ => ?_
  by_cases hempty : plan.written = []
  · simp [hempty]
  · rw [if_neg (by simpa using hempty), Except.ok.injEq]
    exact ⟨fun h => ⟨hempty, h.symm⟩, fun h => h.2.symm⟩

theorem ofRecords_eq_ok_iff {records : List ρ} {st : InsertStatement m} :
    ofRecords m type d table key records = .ok st ↔
      ∃ first rest, records.map (InsertPlan.ofRecord m type key) = (first :: rest).map .ok ∧
        first.written ≠ [] ∧ (∀ plan ∈ rest, plan.columns = first.columns) ∧
        st = ofPlans d table first (first :: rest) := by
  unfold ofRecords
  rw [bind_eq_ok_iff]
  simp only [mapM_eq_ok_iff]
  constructor
  · rintro ⟨plans, hplans, h⟩
    cases plans with
    | nil => exact absurd h (by simp)
    | cons first rest =>
      dsimp only at h
      split at h
      · exact absurd h (by simp)
      · next hempty =>
        split at h
        · next hall =>
          refine ⟨first, rest, hplans, by simpa using hempty, fun plan hplan => ?_,
            (Except.ok.inj h).symm⟩
          exact eq_of_beq (List.all_eq_true.1 hall plan hplan)
        · exact absurd h (by simp)
  · rintro ⟨first, rest, hplans, hwritten, hall, rfl⟩
    have hall : (rest.all fun plan => plan.columns == first.columns) = true :=
      List.all_eq_true.2 fun plan hplan => beq_iff_eq.2 (hall plan hplan)
    refine ⟨first :: rest, hplans, ?_⟩
    dsimp only
    rw [if_neg (by simpa using hwritten), if_pos hall]

/-- A field that takes the remainder or holds a record has no column of its own. -/
theorem path_ne_of_label {tags : List FieldTag} {f : MappedField} (hf : FieldTag.Maps tags f)
    {k : Nat} {t : FieldTag} {p : Tag} (hk : tags[k]? = some t) (hp : Tag.parse t.tag = .ok p)
    (hlabel : p.remainder = true ∨ p.embed = true) : f.path ≠ [k] := by
  cases hf with
  | inner => simp
  | plain hi hq hembed hremainder =>
    intro hpath
    obtain rfl := List.singleton_inj.1 hpath
    obtain rfl := Option.some.inj (hk.symm.trans hi)
    obtain rfl := Except.ok.inj (hp.symm.trans hq)
    simp [hembed, hremainder] at hlabel

/-- Every declared column has a place. -/
theorem maps_iff_exists_index {typeName : String} {tags : List FieldTag}
    (hm : Mapping.ofTags typeName tags = .ok m) (f : MappedField) :
    FieldTag.Maps tags f ↔ ∃ i, m.field i = f := by
  have hfields : m.fields = FieldTag.declaredColumns tags :=
    (Mapping.declared_of_ofTags hm).2.1.fields
  rw [← FieldTag.mem_declaredColumns_iff, ← hfields, List.mem_iff_get]
  rfl

theorem divides_of_eq_ok {typeName : String} {tags : List FieldTag}
    (hm : Mapping.ofTags typeName tags = .ok m) {st : InsertStatement m}
    (h : ofRecord m type d table key record = .ok st) :
    ∃ written, st.Divides tags type key record written := by
  obtain ⟨plan, hplan, -, rfl⟩ := ofRecord_eq_ok_iff.1 h
  obtain ⟨hcolumns, hreadBack, hvalues⟩ := InsertPlan.sublist_of_eq_ok hplan
  have hsorted : m.indexes.Pairwise (· < ·) := List.pairwise_lt_finRange _
  have hwritten_iff : ∀ i, i ∈ plan.columns ↔ ¬ m.Pending type key record i := fun i =>
    ((InsertPlan.mem_iff hplan i).1).trans (and_iff_right (List.mem_finRange i))
  have hreadBack_iff : ∀ i, i ∈ plan.readBack ↔ m.Pending type key record i := fun i =>
    ((InsertPlan.mem_iff hplan i).2).trans (and_iff_right (List.mem_finRange i))
  have hall : ∀ i, i ∈ plan.columns ∨ i ∈ plan.readBack := by
    intro i
    rw [hwritten_iff, hreadBack_iff]
    exact (em _).symm
  refine ⟨plan.columns, ?_⟩
  exact
    { columns := rfl
      args := by
        rw [hvalues]
        simp [ofPlans]
      mem_written_iff := hwritten_iff
      mem_readBack_iff := hreadBack_iff
      written_sorted := hsorted.sublist hcolumns
      readBack_sorted := hsorted.sublist hreadBack
      maps_iff := fun f => by
        rw [maps_iff_exists_index hm]
        exact exists_congr fun i => (and_iff_right (hall i)).symm
      path_ne := fun k t p hk hp hlabel i _ =>
        path_ne_of_label ((maps_iff_exists_index hm _).2 ⟨i, rfl⟩) hk hp hlabel }

theorem ofRecord_of_plan {plan : InsertPlan m}
    (hplan : InsertPlan.ofRecord m type key record = .ok plan) :
    ofRecord m type d table key record =
      if plan.written.isEmpty then .error (.noColumns table.name)
      else .ok (ofPlans d table plan [plan]) := by
  rw [ofRecord, hplan]
  rfl

theorem written_isEmpty_iff {plan : InsertPlan m}
    (hplan : InsertPlan.ofRecord m type key record = .ok plan) :
    plan.written.isEmpty = true ↔ ∀ i, m.Pending type key record i := by
  have hcolumns : plan.written.isEmpty = true ↔ ∀ i, i ∉ plan.columns := by
    rw [List.isEmpty_iff, ← List.eq_nil_iff_forall_not_mem, InsertPlan.columns, List.map_eq_nil_iff]
  rw [hcolumns]
  refine forall_congr' fun i => ?_
  rw [(InsertPlan.mem_iff hplan i).1, not_and, not_not]
  exact forall_prop_of_true (List.mem_finRange i)

/-- If all fields that can be written are encoded, an insert fails only for want of columns. -/
theorem ofRecord_of_encodes (d : Dialect) (table : Table) (key : List m.Index)
    (h : m.Encodes type record) :
    ((∀ i, m.Pending type key record i) ∧
        ofRecord m type d table key record = .error (.noColumns table.name)) ∨
      (¬ (∀ i, m.Pending type key record i) ∧
        ∃ st, ofRecord m type d table key record = .ok st) := by
  obtain ⟨plan, hplan⟩ : ∃ plan, InsertPlan.ofRecord m type key record = .ok plan :=
    InsertPlan.exists_ofIndexes_eq_ok fun i _ => h i
  rw [ofRecord_of_plan hplan, ← written_isEmpty_iff hplan]
  by_cases hempty : plan.written.isEmpty = true
  · exact .inl ⟨hempty, if_pos hempty⟩
  · exact .inr ⟨hempty, _, if_neg hempty⟩

theorem ofRecord_of_firstUnencoded (d : Dialect) (table : Table) (key : List m.Index)
    {i : m.Index} {e : CoerceError} (h : m.FirstUnencoded type record i e) :
    ofRecord m type d table key record =
      .error (.invalidArgument s!"field {(m.field i).field}: {e.message}") := by
  rw [ofRecord, InsertPlan.ofRecord_of_firstUnencoded h]
  rfl

/-- **An insert divides the columns of a mapping** without loss or overlap: the pending ones are read
back, and the others written.  It fails only if a field that can be written cannot be encoded, for
the first such field, or else if all columns are pending. -/
theorem ofRecord_divides {typeName : String} {tags : List FieldTag}
    (hm : Mapping.ofTags typeName tags = .ok m) (type : RecordType ρ) (d : Dialect) (table : Table)
    (key : List m.Index) (record : ρ) :
    (∀ st, ofRecord m type d table key record = .ok st →
      ∃ written, st.Divides tags type key record written) ∧
    ((∃ reason, ofRecord m type d table key record = .error (.invalidArgument reason)) ↔
      ∃ i e, (m.field i).generated = false ∧ type.get record (m.field i).path = .error e) ∧
    (∀ i e, m.FirstUnencoded type record i e →
      ofRecord m type d table key record =
        .error (.invalidArgument s!"field {(m.field i).field}: {e.message}")) ∧
    (ofRecord m type d table key record = .error (.noColumns table.name) ↔
      m.Encodes type record ∧ ∀ i, m.Pending type key record i) ∧
    ∀ e, ofRecord m type d table key record = .error e →
      (∃ reason, e = .invalidArgument reason) ∨ e = .noColumns table.name := by
  refine ⟨fun st h => divides_of_eq_ok hm h, ?_⟩
  rw [← Mapping.not_encodes_iff]
  by_cases hencodes : m.Encodes type record
  · rcases ofRecord_of_encodes d table key hencodes with ⟨hpending, h⟩ | ⟨hpending, st, h⟩
    · refine ⟨?_, fun _ _ => ofRecord_of_firstUnencoded d table key, ?_⟩
      · simp [h, hencodes]
      · simp [h, hencodes, hpending]
    · refine ⟨?_, fun _ _ => ofRecord_of_firstUnencoded d table key, ?_⟩
      · simp [h, hencodes]
      · rw [h]
        simp [hpending]
  · obtain ⟨i, e, hgenerated, hi⟩ := Mapping.not_encodes_iff.1 hencodes
    obtain ⟨j, e', hj⟩ := Mapping.exists_firstUnencoded hgenerated hi
    have h := ofRecord_of_firstUnencoded d table key hj
    refine ⟨?_, fun _ _ => ofRecord_of_firstUnencoded d table key, ?_⟩
    · simp [h, hencodes]
    · simp [h, hencodes]

/-- The insert of a new note writes its code, and leaves the id, the label and the stamp inside of
its embedded record to the database. -/
theorem ofRecord_divides_note :
    Mapping.ofTags "Note" noteType.tags = .ok noteMapping ∧
    ∃ st written, ofRecord noteMapping noteType .mysql ⟨"notes", []⟩ [noteKey]
        (noteOf 0 "a" "" "") = .ok st ∧
      st.sql = "INSERT INTO notes (`code`) VALUES (?)" ∧ st.columns = ["code"] ∧
      st.readBack = noteReadBack ∧
      st.Divides noteType.tags noteType [noteKey] (noteOf 0 "a" "" "") written := by
  have hm : Mapping.ofTags "Note" noteType.tags = .ok noteMapping := mapping_noteType
  obtain ⟨st, hst, hsql, hcolumns, hreadBack⟩ : ∃ st, ofRecord noteMapping noteType .mysql
      ⟨"notes", []⟩ [noteKey] (noteOf 0 "a" "" "") = .ok st ∧
        st.sql = "INSERT INTO notes (`code`) VALUES (?)" ∧ st.columns = ["code"] ∧
        st.readBack = noteReadBack := ⟨_, rfl, rfl, rfl, rfl⟩
  obtain ⟨written, hdivides⟩ :=
    (ofRecord_divides hm noteType .mysql ⟨"notes", []⟩ [noteKey] (noteOf 0 "a" "" "")).1 st hst
  exact ⟨hm, st, written, hst, hsql, hcolumns, hreadBack, hdivides⟩

end InsertStatement
end TableRecords
