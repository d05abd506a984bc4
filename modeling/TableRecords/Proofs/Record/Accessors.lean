import TableRecords.Proofs.Record.Layout

/-!
# Laws of derived accessors

Along a whole path, reading gives what the path leads to, and setting replaces it and nothing else;
where a path leads to no value, both report the part of it that the last record saw:

    s.follow path = some (.value c x) → s.read missing path = c.encode x            (read_of_value)
    s.follow path = some (.value c x) → c.decode v = .ok y →
      (s.assign missing path v).2.follow path = some (.value c y)                   (assign_of_ok)
    other ≠ path → `other` leads to the values that it led to before         (follow_assign_of_ne)

A record type whose accessors are derived for a layout (`RecordType.Derived`), as those of every
shape are (`Shape.derived`), is therefore a lens on its values (`RecordType.Derived.IsLens`).
-/

namespace TableRecords
namespace Layout

/-! ## Along a whole path -/

namespace Slot

/-- What a path leads to is found at the field whose number comes first. -/
theorem exists_slot_of_follow {s t : Slot} {i : Nat} {rest : Path}
    (h : s.follow (i :: rest) = some t) :
    ∃ L d next, s = record L d ∧ (L.slots d)[i]? = some next ∧ next.follow rest = some t := by
  cases s with
  | value c x => exact absurd h (by simp [follow])
  | record L d =>
    obtain ⟨next, hnext, h⟩ := Option.bind_eq_some_iff.1 h
    exact ⟨L, d, next, rfl, hnext, h⟩

theorem read_of_value {s : Slot} {path : Path} {c : Codec} {x : c.Content}
    (h : s.follow path = some (.value c x)) (missing : Path) :
    s.read missing path = c.encode x := by
  induction path generalizing s missing with
  | nil =>
    obtain rfl : s = value c x := Option.some.inj h
    rfl
  | cons i rest ih =>
    obtain ⟨L, d, next, rfl, hnext, h⟩ := exists_slot_of_follow h
    show L.get d (i :: rest) = _
    rw [get_cons, hnext]
    exact ih h _

/-- A value that decodes is set where the path leads. -/
theorem assign_of_ok {s : Slot} {path : Path} {c : Codec} {x y : c.Content} {v : Value}
    (h : s.follow path = some (.value c x)) (hy : c.decode v = .ok y) (missing : Path) :
    (s.assign missing path v).1 = .ok () ∧
      (s.assign missing path v).2.follow path = some (.value c y) := by
  induction path generalizing s missing with
  | nil =>
    obtain rfl : s = value c x := Option.some.inj h
    rw [assign_value_of_ok hy]
    exact ⟨rfl, rfl⟩
  | cons i rest ih =>
    obtain ⟨L, d, next, rfl, hnext, h⟩ := exists_slot_of_follow h
    obtain ⟨hresult, hfollow⟩ := ih h (i :: rest)
    constructor
    · show (L.assign d (i :: rest) v).1 = _
      rw [fst_assign_cons, hnext]
      exact hresult
    · show (record L (L.assign d (i :: rest) v).2).follow (i :: rest) = _
      rw [follow_record_cons, slots_assign_cons, List.getElem?_modify, hnext]
      simpa using hfollow

theorem assign_of_error {s : Slot} {path : Path} {c : Codec} {x : c.Content} {v : Value}
    {e : CoerceError} (h : s.follow path = some (.value c x)) (he : c.decode v = .error e)
    (missing : Path) : (s.assign missing path v).1 = .error e := by
  induction path generalizing s missing with
  | nil =>
    obtain rfl : s = value c x := Option.some.inj h
    rw [assign_value_of_error he]
  | cons i rest ih =>
    obtain ⟨L, d, next, rfl, hnext, h⟩ := exists_slot_of_follow h
    show (L.assign d (i :: rest) v).1 = _
    rw [fst_assign_cons, hnext]
    exact ih h _

/-- Where a path leads to no value, both accessors report what is left of it. -/
theorem of_astray {s : Slot} {path : Path} (h : ∀ c x, s.follow path ≠ some (.value c x))
    {missing : Path} (hmissing : path <:+ missing) :
    ∃ reported, reported <:+ missing ∧ s.read missing path = .error (.unknownField reported) ∧
      ∀ v, (s.assign missing path v).1 = .error (.unknownField reported) := by
  induction path generalizing s missing with
  | nil =>
    cases s with
    | value c x => exact absurd rfl (h c x)
    | record L d => exact ⟨missing, List.suffix_rfl, rfl, fun _ => rfl⟩
  | cons i rest ih =>
    cases s with
    | value c x => exact ⟨missing, List.suffix_rfl, rfl, fun _ => rfl⟩
    | record L d =>
      cases hnext : (L.slots d)[i]? with
      | none =>
        refine ⟨i :: rest, hmissing, ?_, fun v => ?_⟩
        · show L.get d (i :: rest) = _
          rw [get_cons, hnext]
          rfl
        · show (L.assign d (i :: rest) v).1 = _
          rw [fst_assign_cons, hnext]
          rfl
      | some next =>
        have hvalue : ∀ c x, next.follow rest ≠ some (.value c x) := by
          intro c x hfollow
          refine h c x ?_
          rw [follow_record_cons, hnext]
          exact hfollow
        obtain ⟨reported, hsuffix, hread, hassign⟩ := ih hvalue (List.suffix_cons i rest)
        refine ⟨reported, hsuffix.trans hmissing, ?_, fun v => ?_⟩
        · show L.get d (i :: rest) = _
          rw [get_cons, hnext]
          exact hread
        · show (L.assign d (i :: rest) v).1 = _
          rw [fst_assign_cons, hnext]
          exact hassign v

/-- Other paths lead to the values that they led to before. -/
theorem follow_assign_of_ne {path other : Path} (hne : other ≠ path) (s : Slot) (missing : Path)
    (v : Value) (c : Codec) (x : c.Content) :
    (s.assign missing path v).2.follow other = some (.value c x) ↔
      s.follow other = some (.value c x) := by
  induction path generalizing s missing other with
  | nil =>
    cases s with
    | value c' y =>
      obtain ⟨i, rest, rfl⟩ := List.exists_cons_of_ne_nil hne
      cases hv : c'.decode v with
      | ok z =>
        rw [assign_value_of_ok hv]
        rfl
      | error e => rw [assign_value_of_error hv]
    | record L d => rfl
  | cons i rest ih =>
    cases s with
    | value c' y => rfl
    | record L d =>
      show (record L (L.assign d (i :: rest) v).2).follow other = _ ↔ _
      cases other with
      | nil => simp [follow]
      | cons j other =>
        rw [follow_record_cons, follow_record_cons, slots_assign_cons, List.getElem?_modify]
        by_cases hij : i = j
        · subst hij
          have hrest : other ≠ rest := fun heq => hne (heq ▸ rfl)
          cases hnext : (L.slots d)[i]? with
          | none => rfl
          | some next => simpa using ih hrest next (i :: rest)
        · simp [hij]

end Slot

/-! ## What is left alone -/

/-- A field that cannot be set leaves the record as it was. -/
theorem assignFrom_of_error {L : Layout} {d : L.Data} {index : Nat} {path : Path} {v : Value}
    {e : CoerceError} (h : (L.assignFrom index d path v).1 = .error e) :
    (L.assignFrom index d path v).2 = d := by
  induction L generalizing index path with
  | nil => rfl
  | unmapped Content L ih => exact congrArg (Prod.mk d.1) (ih h)
  | value c L ih =>
    by_cases hpath : path = [index]
    · subst hpath
      cases hv : c.decode v with
      | ok y =>
        rw [assignFrom_value_of_ok hv] at h
        exact absurd h (by simp)
      | error e => rw [assignFrom_value_of_error hv]
    · rw [assignFrom_behind_value hpath] at h ⊢
      exact congrArg (Prod.mk d.1) (ih h)
  | record inner L ihInner ih =>
    by_cases hpath : path.head? = some index ∧ path.tail ≠ []
    · rw [assignFrom, if_pos hpath] at h ⊢
      exact congrArg (·, d.2) (ihInner h)
    · rw [assignFrom, if_neg hpath] at h ⊢
      exact congrArg (Prod.mk d.1) (ih h)

theorem others_assignFrom (L : Layout) (d : L.Data) (index : Nat) (path : Path) (v : Value) :
    L.others (L.assignFrom index d path v).2 = L.others d := by
  induction L generalizing index path with
  | nil => rfl
  | unmapped Content L ih => exact congrArg (_ :: ·) (ih d.2 index path)
  | value c L ih =>
    by_cases hpath : path = [index]
    · subst hpath
      cases hv : c.decode v with
      | ok y =>
        rw [assignFrom_value_of_ok hv]
        rfl
      | error e => rw [assignFrom_value_of_error hv]
    · rw [assignFrom_behind_value hpath]
      exact ih d.2 (index + 1) path
  | record inner L ihInner ih =>
    by_cases hpath : path.head? = some index ∧ path.tail ≠ []
    · rw [assignFrom, if_pos hpath]
      exact congrArg (· ++ _) (ihInner d.1 0 path.tail)
    · rw [assignFrom, if_neg hpath]
      exact congrArg (_ ++ ·) (ih d.2 (index + 1) path)

end Layout

/-! ## Derived accessors -/

/-- What became of a record that was worked on in place, if the call did not fail. -/
def settled {α : Type} (r : Except CoerceError Unit × α) : Except CoerceError α :=
  r.1.map fun _ => r.2

theorem settled_map_map {α β α' β' : Type} {put : α → β} {f : β → β'} {g : α → α'} {put' : α' → β'}
    (h : ∀ a, f (put a) = put' (g a)) (r : Except CoerceError Unit × α) :
    (settled (r.map id put)).map f = ((settled r).map g).map put' := by
  obtain ⟨result, a⟩ := r
  cases result with
  | error e => rfl
  | ok u => exact congrArg Except.ok (h a)

/-- The accessors of a record type are those that are derived for a layout. -/
structure RecordType.Derived {ρ : Type} (type : RecordType ρ) (L : Layout) where
  data : ρ ≃ L.Data
  get_eq : ∀ d path, type.get d path = L.get (data d) path
  set_eq : ∀ d path v, type.set d path v = (settled (L.assign (data d) path v)).map data.symm

namespace Shape

/-- The fields of a shape. -/
def layout : Shape → Layout
  | nil => .nil
  | plain _ _ t rest => .value t.codec rest.layout
  | embed _ _ inner rest => .record inner.layout rest.layout

/-- A record of a shape, as one of its layout. -/
def data : (s : Shape) → s.Data ≃ s.layout.Data
  | nil => Equiv.refl Unit
  | plain _ _ t rest => (Equiv.refl t.Carrier).prodCongr rest.data
  | embed _ _ inner rest => inner.data.prodCongr rest.data

/-- Reads a leaf that was found. -/
def readLeaf {s : Shape} (d : s.Data) : Except Path (Leaf s) → Except CoerceError Value
  | .ok leaf => leaf.type.encode (leaf.get d)
  | .error missing => .error (.unknownField missing)

/-- Sets a leaf that was found. -/
def setLeaf {s : Shape} (d : s.Data) (v : Value) : Except Path (Leaf s) → Except CoerceError s.Data
  | .ok leaf => (leaf.type.decode v).map fun x => leaf.set x d
  | .error missing => .error (.unknownField missing)

/-- A leaf that was found in a record that a field holds, or behind a field, is set there. -/
theorem setLeaf_map {s t : Shape} {leafOf : Leaf t → Leaf s} {d : s.Data} {d' : t.Data}
    {put : t.Data → s.Data} {v : Value}
    (h : ∀ leaf, setLeaf d v (.ok (leafOf leaf)) = (setLeaf d' v (.ok leaf)).map put)
    (r : Except Path (Leaf t)) : setLeaf d v (r.map leafOf) = (setLeaf d' v r).map put := by
  cases r with
  | ok leaf => exact h leaf
  | error missing => rfl

/-- What the derived arms make of a record of a shape, from the field of a number on. -/
def setFrom (s : Shape) (index : Nat) (d : s.Data) (path : Path) (v : Value) :
    Except CoerceError s.Data :=
  (settled (s.layout.assignFrom index (s.data d) path v)).map s.data.symm

section Plain

variable {field tag : String} {t : FieldType} {s : Shape} {d : (plain field tag t s).Data}
  {index : Nat} {v : Value}

theorem readLeaf_behindPlain (r : Except Path (Leaf s)) :
    readLeaf (s := plain field tag t s) d (r.map .behindPlain) = readLeaf d.2 r := by
  cases r <;> rfl

theorem setLeaf_behindPlain (r : Except Path (Leaf s)) :
    setLeaf (s := plain field tag t s) d v (r.map .behindPlain) =
      (setLeaf d.2 v r).map (Prod.mk d.1) := by
  apply setLeaf_map
  intro leaf
  show (leaf.type.decode v).map _ = ((leaf.type.decode v).map _).map _
  cases leaf.type.decode v <;> rfl

theorem setFrom_plain :
    (plain field tag t s).setFrom index d [index] v = (t.decode v).map (·, d.2) := by
  have hrest := s.data.symm_apply_apply d.2
  cases hv : t.decode v with
  | error e =>
    have harm : (plain field tag t s).layout.assignFrom index ((plain field tag t s).data d)
        [index] v = (.error e, _) := Layout.assignFrom_value_of_error hv _
    rw [setFrom, harm]
    rfl
  | ok x =>
    have harm : (plain field tag t s).layout.assignFrom index ((plain field tag t s).data d)
        [index] v = (.ok (), (x, s.data d.2)) := Layout.assignFrom_value_of_ok hv _
    rw [setFrom, harm]
    exact congrArg (Except.ok ∘ Prod.mk x) hrest

theorem setFrom_behind_plain {path : Path} (h : path ≠ [index]) :
    (plain field tag t s).setFrom index d path v =
      (s.setFrom (index + 1) d.2 path v).map (Prod.mk d.1) := by
  have harm : (plain field tag t s).layout.assignFrom index ((plain field tag t s).data d) path v =
      (s.layout.assignFrom (index + 1) (s.data d.2) path v).map id (Prod.mk d.1) :=
    Layout.assignFrom_behind_value h _ v
  rw [setFrom, harm]
  apply settled_map_map
  intro behind
  rfl

end Plain

section Embed

variable {field tag : String} {inner s : Shape}
  {d : (embed field tag inner s).Data} {index : Nat} {path : Path} {v : Value}

theorem readLeaf_behindEmbed (r : Except Path (Leaf s)) :
    readLeaf (s := embed field tag inner s) d (r.map .behindEmbed) = readLeaf d.2 r := by
  cases r <;> rfl

theorem setLeaf_behindEmbed (r : Except Path (Leaf s)) :
    setLeaf (s := embed field tag inner s) d v (r.map .behindEmbed) =
      (setLeaf d.2 v r).map (Prod.mk d.1) := by
  apply setLeaf_map
  intro leaf
  show (leaf.type.decode v).map _ = ((leaf.type.decode v).map _).map _
  cases leaf.type.decode v <;> rfl

theorem readLeaf_inside (r : Except Path (Leaf inner)) :
    readLeaf (s := embed field tag inner s) d (r.map .inside) = readLeaf d.1 r := by
  cases r <;> rfl

theorem setLeaf_inside (r : Except Path (Leaf inner)) :
    setLeaf (s := embed field tag inner s) d v (r.map .inside) =
      (setLeaf d.1 v r).map (·, d.2) := by
  apply setLeaf_map
  intro leaf
  show (leaf.type.decode v).map _ = ((leaf.type.decode v).map _).map _
  cases leaf.type.decode v <;> rfl

theorem setFrom_embed (h : path ≠ []) :
    (embed field tag inner s).setFrom index d (index :: path) v =
      (inner.setFrom 0 d.1 path v).map (·, d.2) := by
  have harm : (embed field tag inner s).layout.assignFrom index
      ((embed field tag inner s).data d) (index :: path) v =
        (inner.layout.assignFrom 0 (inner.data d.1) path v).map id (·, s.data d.2) :=
    Layout.assignFrom_record h _ v
  rw [setFrom, harm]
  apply settled_map_map
  intro record
  exact congrArg (Prod.mk (inner.data.symm record)) (s.data.symm_apply_apply d.2)

theorem setFrom_behind_embed (h : path.head? ≠ some index ∨ path.tail = []) :
    (embed field tag inner s).setFrom index d path v =
      (s.setFrom (index + 1) d.2 path v).map (Prod.mk d.1) := by
  have harm : (embed field tag inner s).layout.assignFrom index
      ((embed field tag inner s).data d) path v =
        (s.layout.assignFrom (index + 1) (s.data d.2) path v).map id
          (Prod.mk (inner.data d.1)) :=
    Layout.assignFrom_behind_record h _ v
  rw [setFrom, harm]
  apply settled_map_map
  intro behind
  exact congrArg (·, s.data.symm behind) (inner.data.symm_apply_apply d.1)

end Embed

/-- No arm is left for a path that begins before the arms. -/
theorem setFrom_before (s : Shape) {index i : Nat} (h : i < index) (d : s.Data) (rest : Path)
    (v : Value) : s.setFrom index d (i :: rest) v = .error (.unknownField (i :: rest)) := by
  rw [setFrom, Layout.assignFrom_before _ _ (by simpa using h)]
  rfl

/-- A leaf is read from the field whose number comes first. -/
theorem readLeaf_leafFrom (s : Shape) (d : s.Data) (i : Nat) (rest missing : Path) :
    readLeaf d (s.leafFrom i rest missing) =
      ((s.layout.slots (s.data d))[i]?.map (·.read missing rest)).getD
        (.error (.unknownField missing)) := by
  induction s generalizing i rest missing with
  | nil => rfl
  | plain field tag t s ih =>
    cases i with
    | zero => cases rest <;> rfl
    | succ i =>
      rw [leafFrom, readLeaf_behindPlain]
      exact ih d.2 i rest missing
  | embed field tag inner s ihInner ih =>
    cases i with
    | zero =>
      cases rest with
      | nil => rfl
      | cons j rest =>
        show _ = inner.layout.get (inner.data d.1) (j :: rest)
        rw [leafFrom, readLeaf_inside, Layout.get_cons]
        exact ihInner d.1 j rest (j :: rest)
    | succ i =>
      rw [leafFrom, readLeaf_behindEmbed]
      exact ih d.2 i rest missing

/-- A leaf is set by the arm of its field. -/
theorem setLeaf_leafFrom (s : Shape) (d : s.Data) (v : Value) (index i : Nat) (rest : Path) :
    setLeaf d v (s.leafFrom i rest ((index + i) :: rest)) =
      s.setFrom index d ((index + i) :: rest) v := by
  induction s generalizing index i rest with
  | nil => rfl
  | plain field tag t s ih =>
    cases i with
    | zero =>
      cases rest with
      | nil => exact setFrom_plain.symm
      | cons j rest =>
        rw [setFrom_behind_plain (by simp), setFrom_before _ (by simp)]
        rfl
    | succ i =>
      have hnext : index + (i + 1) = index + 1 + i := by omega
      rw [leafFrom, setLeaf_behindPlain, setFrom_behind_plain (by simp), hnext, ih]
  | embed field tag inner s ihInner ih =>
    cases i with
    | zero =>
      cases rest with
      | nil =>
        rw [setFrom_behind_embed (.inr rfl), setFrom_before _ (by simp)]
        rfl
      | cons j rest =>
        have h := ihInner d.1 0 j rest
        rw [Nat.zero_add] at h
        rw [leafFrom, setLeaf_inside, Nat.add_zero, setFrom_embed (by simp), h]
    | succ i =>
      have hnext : index + (i + 1) = index + 1 + i := by omega
      rw [leafFrom, setLeaf_behindEmbed, setFrom_behind_embed (.inl (by simp)), hnext, ih]

/-- The accessors of a shape are those that are derived for its fields. -/
def derived (s : Shape) (typeName : String) : (s.recordType typeName).Derived s.layout where
  data := s.data
  get_eq d path := by
    cases path with
    | nil => exact (Layout.get_nil s.layout (s.data d)).symm
    | cons i rest =>
      rw [Layout.get_cons]
      exact readLeaf_leafFrom s d i rest (i :: rest)
  set_eq d path v := by
    cases path with
    | nil =>
      rw [Layout.assign_nil]
      rfl
    | cons i rest =>
      have h := setLeaf_leafFrom s d v 0 i rest
      rwa [Nat.zero_add] at h

end Shape

/-! ## Main result -/

namespace RecordType.Derived

variable {ρ : Type} {type : RecordType ρ} {L : Layout}

/-- What a path leads to from a record. -/
def at? (D : type.Derived L) (d : ρ) (path : Path) : Option Layout.Slot := L.at? (D.data d) path

/-- The accessors form a lens on the fields that hold values, and lead nowhere else. -/
structure IsLens (D : type.Derived L) : Prop where
  /-- A path leads to a value, or it is empty or too short, too long or out of range. -/
  value_or_astray : ∀ d path, (∃ c x, D.at? d path = some (.value c x)) ↔
    ¬L.Astray (D.data d) path
  get_value : ∀ d path c x, D.at? d path = some (.value c x) → type.get d path = c.encode x
  /-- Setting succeeds if the path leads to a value and the new one decodes. -/
  set_iff : ∀ d path v, (∃ d', type.set d path v = .ok d') ↔
    ∃ c x y, D.at? d path = some (.value c x) ∧ c.decode v = .ok y
  /-- What it decoded to is held and read back. -/
  get_set : ∀ d path v d', type.set d path v = .ok d' →
    ∃ c x y, D.at? d path = some (.value c x) ∧ c.decode v = .ok y ∧
      D.at? d' path = some (.value c y) ∧ type.get d' path = c.encode y
  /-- Every other value is held and read as before. -/
  get_set_of_ne : ∀ d path v d' other c x, type.set d path v = .ok d' → other ≠ path →
    D.at? d other = some (.value c x) →
      D.at? d' other = some (.value c x) ∧ type.get d' other = type.get d other
  /-- So is what the fields without a tag hold. -/
  others_set : ∀ d path v d', type.set d path v = .ok d' →
    L.others (D.data d') = L.others (D.data d)
  /-- A record that is worked on in place is what it was if the call fails. -/
  unchanged : ∀ d path v e, type.set d path v = .error e →
    L.assign (D.data d) path v = (.error e, D.data d)
  /-- A path that leads to no value is refused by both accessors, as the record that it leaves
  sees it. -/
  unknown : ∀ d path, L.Astray (D.data d) path → ∃ missing, missing <:+ path ∧
    type.get d path = .error (.unknownField missing) ∧
    ∀ v, type.set d path v = .error (.unknownField missing)

theorem set_eq_ok_iff (D : type.Derived L) {d d' : ρ} {path : Path} {v : Value} :
    type.set d path v = .ok d' ↔ L.assign (D.data d) path v = (.ok (), D.data d') := by
  rw [D.set_eq]
  rcases L.assign (D.data d) path v with ⟨e | u, a⟩
  · simp [settled, Except.map]
  · simp [settled, Except.map, Equiv.symm_apply_eq]

theorem set_eq_error_iff (D : type.Derived L) {d : ρ} {path : Path} {v : Value}
    {e : CoerceError} :
    type.set d path v = .error e ↔ (L.assign (D.data d) path v).1 = .error e := by
  rw [D.set_eq]
  rcases L.assign (D.data d) path v with ⟨e' | u, a⟩ <;> simp [settled, Except.map]

theorem value_or_astray (D : type.Derived L) (d : ρ) (path : Path) :
    (∃ c x, D.at? d path = some (.value c x)) ↔ ¬L.Astray (D.data d) path := by
  rw [Layout.astray_iff]
  simp only [ne_eq, not_forall, not_not]
  rfl

theorem get_of_value (D : type.Derived L) {d : ρ} {path : Path} {c : Codec} {x : c.Content}
    (h : D.at? d path = some (.value c x)) : type.get d path = c.encode x := by
  rw [D.get_eq, Layout.get_eq_read]
  exact Layout.Slot.read_of_value h path

/-- The result of setting is that of the slot, and so is what the record is then. -/
theorem fst_assign_eq (D : type.Derived L) (d : ρ) (path : Path) (v : Value) :
    (L.assign (D.data d) path v).1 = ((Layout.Slot.record L (D.data d)).assign path path v).1 :=
  congrArg Prod.fst (Layout.assign_eq_assign L (D.data d) path v)

theorem at?_of_set (D : type.Derived L) {d d' : ρ} {path : Path} {v : Value}
    (h : type.set d path v = .ok d') (other : Path) :
    D.at? d' other = ((Layout.Slot.record L (D.data d)).assign path path v).2.follow other := by
  have hrecord := congrArg Prod.snd (Layout.assign_eq_assign L (D.data d) path v)
  rw [D.set_eq_ok_iff.1 h] at hrecord
  rw [← hrecord]
  rfl

theorem unknown_of_astray (D : type.Derived L) {d : ρ} {path : Path}
    (h : L.Astray (D.data d) path) :
    ∃ missing, missing <:+ path ∧ type.get d path = .error (.unknownField missing) ∧
      ∀ v, type.set d path v = .error (.unknownField missing) := by
  obtain ⟨missing, hsuffix, hread, hassign⟩ :=
    Layout.Slot.of_astray (Layout.astray_iff.1 h) List.suffix_rfl
  refine ⟨missing, hsuffix, ?_, fun v => ?_⟩
  · rw [D.get_eq, Layout.get_eq_read]
    exact hread
  · rw [D.set_eq_error_iff, D.fst_assign_eq]
    exact hassign v

/-- What was set is a value that the path led to before, and holds what was decoded. -/
theorem at?_of_set_eq_ok (D : type.Derived L) {d d' : ρ} {path : Path} {v : Value}
    (h : type.set d path v = .ok d') :
    ∃ c x y, D.at? d path = some (.value c x) ∧ c.decode v = .ok y ∧
      D.at? d' path = some (.value c y) := by
  have hresult : ((Layout.Slot.record L (D.data d)).assign path path v).1 = .ok () := by
    rw [← D.fst_assign_eq, D.set_eq_ok_iff.1 h]
  by_cases hvalue : ∃ c x, D.at? d path = some (.value c x)
  · obtain ⟨c, x, hx⟩ := hvalue
    cases hy : c.decode v with
    | error e =>
      have herror := Layout.Slot.assign_of_error hx hy path
      exact absurd (herror.symm.trans hresult) (by simp)
    | ok y =>
      refine ⟨c, x, y, hx, hy, ?_⟩
      rw [D.at?_of_set h]
      exact (Layout.Slot.assign_of_ok hx hy path).2
  · have hastray := not_not.1 (mt (D.value_or_astray d path).2 hvalue)
    obtain ⟨missing, -, -, hset⟩ := D.unknown_of_astray hastray
    exact absurd ((hset v).symm.trans h) (by simp)

/-- **Derived accessors form a lens.**  Setting succeeds if and only if the path leads to a value
and the new one decodes; what it decoded to is read back, every other value is kept, and a call that
fails leaves the record as it was.  Paths that lead to no value are unknown to both accessors. -/
theorem isLens (D : type.Derived L) : D.IsLens where
  value_or_astray := D.value_or_astray
  get_value d path c x h := D.get_of_value h
  set_iff d path v := by
    constructor
    · rintro ⟨d', h⟩
      obtain ⟨c, x, y, hx, hy, -⟩ := D.at?_of_set_eq_ok h
      exact ⟨c, x, y, hx, hy⟩
    · rintro ⟨c, x, y, hx, hy⟩
      have hresult : (L.assign (D.data d) path v).1 = .ok () := by
        rw [D.fst_assign_eq]
        exact (Layout.Slot.assign_of_ok hx hy path).1
      refine ⟨D.data.symm (L.assign (D.data d) path v).2, ?_⟩
      rw [D.set_eq_ok_iff, Equiv.apply_symm_apply, ← hresult]
  get_set d path v d' h := by
    obtain ⟨c, x, y, hx, hy, hheld⟩ := D.at?_of_set_eq_ok h
    exact ⟨c, x, y, hx, hy, hheld, D.get_of_value hheld⟩
  get_set_of_ne d path v d' other c x h hne hx := by
    have hheld : D.at? d' other = some (.value c x) := by
      rw [D.at?_of_set h]
      exact (Layout.Slot.follow_assign_of_ne hne _ path v c x).2 hx
    exact ⟨hheld, by rw [D.get_of_value hheld, D.get_of_value hx]⟩
  others_set d path v d' h := by
    have hothers := Layout.others_assignFrom L (D.data d) 0 path v
    have hassign : L.assignFrom 0 (D.data d) path v = (.ok (), D.data d') := D.set_eq_ok_iff.1 h
    rwa [hassign] at hothers
  unchanged d path v e h := by
    have hresult := D.set_eq_error_iff.1 h
    exact Prod.ext hresult (Layout.assignFrom_of_error hresult)
  unknown d path h := D.unknown_of_astray h

end RecordType.Derived

/-- **The accessors of a record form a lens**, those of every shape and of every other record type
whose accessors are derived. -/
theorem accessors_lens :
    (∀ (s : Shape) (typeName : String),
      ∃ D : (s.recordType typeName).Derived s.layout, D.IsLens) ∧
    ∀ (ρ : Type) (type : RecordType ρ) (L : Layout) (D : type.Derived L), D.IsLens :=
  ⟨fun s typeName => ⟨s.derived typeName, RecordType.Derived.isLens _⟩,
    fun _ _ _ D => D.isLens⟩

theorem accessors_lens_note :
    (∃ d', noteType.set (noteOf 7 "a" "b" "c") [3, 0] (.text "d") = .ok d' ∧
      noteType.get d' [3, 0] = .ok (.text "d") ∧ noteType.get d' [1] = .ok (.text "a")) ∧
    noteShape.layout.Astray (noteShape.data (noteOf 7 "a" "b" "c")) [3] ∧
    ∃ missing, noteType.get (noteOf 7 "a" "b" "c") [3] = .error (.unknownField missing) := by
  have hlens := accessors_lens.2 _ noteType noteShape.layout (noteShape.derived "Note")
  have hstamp : (noteShape.derived "Note").at? (noteOf 7 "a" "b" "c") [3, 0] =
      some (.value FieldType.text.codec "c") := rfl
  have hcode : (noteShape.derived "Note").at? (noteOf 7 "a" "b" "c") [1] =
      some (.value FieldType.text.codec "a") := rfl
  have hastray : noteShape.layout.Astray (noteShape.data (noteOf 7 "a" "b" "c")) [3] := .short rfl
  obtain ⟨d', hset⟩ := (hlens.set_iff _ _ (.text "d")).2 ⟨_, _, "d", hstamp, rfl⟩
  obtain ⟨c, x, y, hx, hy, -, hget⟩ := hlens.get_set _ _ _ _ hset
  obtain ⟨missing, -, hmissing, -⟩ := hlens.unknown _ _ hastray
  have hother := (hlens.get_set_of_ne _ _ _ _ [1] _ _ hset (by decide) hcode).2
  refine ⟨⟨d', hset, ?_, ?_⟩, hastray, missing, hmissing⟩
  · obtain ⟨rfl, h⟩ := Layout.Slot.value.inj (Option.some.inj (hstamp.symm.trans hx))
    obtain rfl := Except.ok.inj hy
    exact hget
  · rw [hother, hlens.get_value _ _ _ _ hcode]
    rfl

end TableRecords
