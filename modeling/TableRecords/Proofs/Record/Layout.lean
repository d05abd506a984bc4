import TableRecords.Proofs.Record.Fields

/-!
# Layouts of records

The fields of a record as its declaration has them: values of any type with a codec, records that
are embedded to any depth, and fields without a tag.  The two accessors try one arm for each mapped
field, in order of declaration, and a path that no arm takes leads nowhere.  Setting works on the
record in place (`Layout.assign`).

What a path leads to is told without the arms: number `i` is the mapped field number `i`, and what
stands behind it is followed in the record that the field holds (`Layout.at?`).  One step of an
accessor goes to that field:

    L.Astray d path ↔ ∀ c x, L.at? d path ≠ some (.value c x)                        (astray_iff)
    L.get d (i :: rest) reads `rest` in slot `i`                                       (get_cons)
    L.slots (L.assign d (i :: rest) v).2 = (L.slots d).modify i …             (slots_assign_cons)
-/

namespace TableRecords

/-- The fields of a record. -/
inductive Layout : Type 1 where
  | nil
  /-- A field without a tag.  It takes no number. -/
  | unmapped (Content : Type) (rest : Layout)
  | value (codec : Codec) (rest : Layout)
  | record (inner rest : Layout)

namespace Layout

/-- A record of a layout. -/
def Data : Layout → Type
  | nil => Unit
  | unmapped Content rest => Content × rest.Data
  | value codec rest => codec.Content × rest.Data
  | record inner rest => inner.Data × rest.Data

/-! ## Accessors -/

/-- Reads the field at a path.  The arm of a value takes the path that ends at it, and that of a
record the paths that go on behind it; the arms from number `index` on are tried. -/
def getFrom : (L : Layout) → (index : Nat) → L.Data → Path → Except CoerceError Value
  | nil, _, _, path => .error (.unknownField path)
  | unmapped _ rest, index, d, path => rest.getFrom index d.2 path
  | value codec rest, index, d, path =>
    if path = [index] then codec.encode d.1 else rest.getFrom (index + 1) d.2 path
  | record inner rest, index, d, path =>
    if path.head? = some index ∧ path.tail ≠ [] then inner.getFrom 0 d.1 path.tail
    else rest.getFrom (index + 1) d.2 path

/-- Sets the field at a path in place: what became of the call, and of the record.  The arms are
those of reading. -/
def assignFrom : (L : Layout) → (index : Nat) → L.Data → Path → Value →
    Except CoerceError Unit × L.Data
  | nil, _, d, path, _ => (.error (.unknownField path), d)
  | unmapped _ rest, index, d, path, v =>
    (rest.assignFrom index d.2 path v).map id fun d' => (d.1, d')
  | value codec rest, index, d, path, v =>
    if path = [index] then
      match codec.decode v with
      | .ok x => (.ok (), (x, d.2))
      | .error e => (.error e, d)
    else (rest.assignFrom (index + 1) d.2 path v).map id fun d' => (d.1, d')
  | record inner rest, index, d, path, v =>
    if path.head? = some index ∧ path.tail ≠ [] then
      (inner.assignFrom 0 d.1 path.tail v).map id fun d' => (d', d.2)
    else (rest.assignFrom (index + 1) d.2 path v).map id fun d' => (d.1, d')

section Arms

variable {c : Codec} {inner rest : Layout} {index : Nat} {path : Path}

theorem getFrom_value (d : (value c rest).Data) :
    (value c rest).getFrom index d [index] = c.encode d.1 := if_pos rfl

theorem getFrom_behind_value (h : path ≠ [index]) (d : (value c rest).Data) :
    (value c rest).getFrom index d path = rest.getFrom (index + 1) d.2 path := if_neg h

theorem getFrom_record (h : path ≠ []) (d : (record inner rest).Data) :
    (record inner rest).getFrom index d (index :: path) = inner.getFrom 0 d.1 path :=
  if_pos ⟨rfl, h⟩

theorem getFrom_behind_record (h : path.head? ≠ some index ∨ path.tail = [])
    (d : (record inner rest).Data) :
    (record inner rest).getFrom index d path = rest.getFrom (index + 1) d.2 path :=
  if_neg fun ⟨hhead, htail⟩ => h.elim (· hhead) htail

theorem assignFrom_value_of_ok {v : Value} {x : c.Content} (h : c.decode v = .ok x)
    (d : (value c rest).Data) :
    (value c rest).assignFrom index d [index] v = (.ok (), (x, d.2)) := by
  rw [assignFrom, if_pos rfl, h]
  rfl

theorem assignFrom_value_of_error {v : Value} {e : CoerceError} (h : c.decode v = .error e)
    (d : (value c rest).Data) : (value c rest).assignFrom index d [index] v = (.error e, d) := by
  rw [assignFrom, if_pos rfl, h]

theorem assignFrom_behind_value (h : path ≠ [index]) (d : (value c rest).Data) (v : Value) :
    (value c rest).assignFrom index d path v =
      (rest.assignFrom (index + 1) d.2 path v).map id fun d' => (d.1, d') := if_neg h

theorem assignFrom_record (h : path ≠ []) (d : (record inner rest).Data) (v : Value) :
    (record inner rest).assignFrom index d (index :: path) v =
      (inner.assignFrom 0 d.1 path v).map id fun d' => (d', d.2) := if_pos ⟨rfl, h⟩

theorem assignFrom_behind_record (h : path.head? ≠ some index ∨ path.tail = [])
    (d : (record inner rest).Data) (v : Value) :
    (record inner rest).assignFrom index d path v =
      (rest.assignFrom (index + 1) d.2 path v).map id fun d' => (d.1, d') :=
  if_neg fun ⟨hhead, htail⟩ => h.elim (· hhead) htail

end Arms

/-- Reads the field at a path. -/
def get (L : Layout) (d : L.Data) (path : Path) : Except CoerceError Value := L.getFrom 0 d path

/-- Sets the field at a path in place. -/
def assign (L : Layout) (d : L.Data) (path : Path) (v : Value) : Except CoerceError Unit × L.Data :=
  L.assignFrom 0 d path v

/-! ## What a path leads to -/

/-- What a mapped field holds. -/
inductive Slot : Type 1 where
  | value (codec : Codec) (x : codec.Content)
  | record (layout : Layout) (d : layout.Data)

/-- The mapped fields of a record in order of declaration. -/
def slots : (L : Layout) → L.Data → List Slot
  | nil, _ => []
  | unmapped _ rest, d => rest.slots d.2
  | value codec rest, d => .value codec d.1 :: rest.slots d.2
  | record inner rest, d => .record inner d.1 :: rest.slots d.2

/-- What a path leads to from here. -/
def Slot.follow : Slot → Path → Option Slot
  | s, [] => some s
  | .value .., _ :: _ => none
  | .record L d, i :: rest => (L.slots d)[i]?.bind (·.follow rest)

/-- What a path leads to from a record. -/
def at? (L : Layout) (d : L.Data) (path : Path) : Option Slot := (Slot.record L d).follow path

/-- The path leads to no value. -/
inductive Astray (L : Layout) (d : L.Data) : Path → Prop where
  /-- It is empty, or ends at a record. -/
  | short {path : Path} {inner : Layout} {d' : inner.Data}
    (h : L.at? d path = some (.record inner d')) : Astray L d path
  /-- It goes on behind a value. -/
  | long {front back : Path} {i : Nat} {c : Codec} {x : c.Content}
    (h : L.at? d front = some (.value c x)) : Astray L d (front ++ i :: back)
  /-- A record on it has too few fields. -/
  | outside {front back : Path} {i : Nat} {inner : Layout} {d' : inner.Data}
    (h : L.at? d front = some (.record inner d')) (hi : (inner.slots d').length ≤ i) :
    Astray L d (front ++ i :: back)

/-- What the fields without a tag hold, also those of the records inside. -/
def others : (L : Layout) → L.Data → List (Σ Content : Type, Content)
  | nil, _ => []
  | unmapped Content rest, d => ⟨Content, d.1⟩ :: rest.others d.2
  | value _ rest, d => rest.others d.2
  | record inner rest, d => inner.others d.1 ++ rest.others d.2

theorem Slot.follow_record_cons (L : Layout) (d : L.Data) (i : Nat) (rest : Path) :
    (record L d).follow (i :: rest) = (L.slots d)[i]?.bind (·.follow rest) := rfl

theorem Slot.follow_append (s : Slot) (front back : Path) :
    s.follow (front ++ back) = (s.follow front).bind (·.follow back) := by
  induction front generalizing s with
  | nil => cases s <;> cases back <;> rfl
  | cons i front ih =>
    cases s with
    | value c x => rfl
    | record L d =>
      rw [List.cons_append, follow_record_cons, follow_record_cons]
      simp only [ih]
      exact (Option.bind_assoc ..).symm

/-- Every path leads to a value or astray. -/
theorem Slot.value_or_astray (s : Slot) (path : Path) :
    (∃ c x, s.follow path = some (.value c x)) ∨
    (∃ inner d', s.follow path = some (.record inner d')) ∨
    (∃ front i back c x, path = front ++ i :: back ∧ s.follow front = some (.value c x)) ∨
    ∃ front i back inner d', path = front ++ i :: back ∧
      s.follow front = some (.record inner d') ∧ (inner.slots d').length ≤ i := by
  induction path generalizing s with
  | nil =>
    cases s with
    | value c x => exact .inl ⟨c, x, rfl⟩
    | record L d => exact .inr (.inl ⟨L, d, rfl⟩)
  | cons i rest ih =>
    cases s with
    | value c x => exact .inr (.inr (.inl ⟨[], i, rest, c, x, rfl, rfl⟩))
    | record L d =>
      cases hs : (L.slots d)[i]? with
      | none =>
        have hi := List.getElem?_eq_none_iff.1 hs
        exact .inr (.inr (.inr ⟨[], i, rest, L, d, rfl, rfl, hi⟩))
      | some s =>
        have hfollow : ∀ path, (Slot.record L d).follow (i :: path) = s.follow path := by
          intro path
          rw [Slot.follow_record_cons, hs, Option.bind_some]
        simp only [hfollow]
        obtain h | h | ⟨front, j, back, c, x, rfl, h⟩ |
          ⟨front, j, back, inner, d', rfl, h, hj⟩ := ih s
        · exact .inl h
        · exact .inr (.inl h)
        · exact .inr (.inr (.inl ⟨i :: front, j, back, c, x, rfl, by rw [hfollow, h]⟩))
        · exact .inr (.inr (.inr ⟨i :: front, j, back, inner, d', rfl, by rw [hfollow, h], hj⟩))

theorem astray_iff {L : Layout} {d : L.Data} {path : Path} :
    L.Astray d path ↔ ∀ c x, L.at? d path ≠ some (.value c x) := by
  constructor
  · intro h c x
    cases h with
    | short h => simp [h]
    | @long front back i c' x' h =>
      have hfront : (Slot.record L d).follow front = some (.value c' x') := h
      simp [at?, Slot.follow_append, hfront, Slot.follow]
    | @outside front back i inner d' h hi =>
      have hfront : (Slot.record L d).follow front = some (.record inner d') := h
      simp [at?, Slot.follow_append, hfront, Slot.follow, hi]
  · intro h
    obtain ⟨c, x, hvalue⟩ | ⟨inner, d', hrecord⟩ | ⟨front, i, back, c, x, rfl, hvalue⟩ |
      ⟨front, i, back, inner, d', rfl, hrecord, hi⟩ := (Slot.record L d).value_or_astray path
    · exact absurd hvalue (h c x)
    · exact .short hrecord
    · exact .long hvalue
    · exact .outside hrecord hi

/-! ## One step along a path -/

/-- Reads what stands at the rest of a path, here; `missing` is reported if nothing does. -/
def Slot.read (missing : Path) : Slot → Path → Except CoerceError Value
  | .value c x, [] => c.encode x
  | .record inner d, i :: rest => inner.get d (i :: rest)
  | _, _ => .error (.unknownField missing)

/-- Sets what stands at the rest of a path, likewise. -/
def Slot.assign (missing : Path) : Slot → Path → Value → Except CoerceError Unit × Slot
  | .value c x, [], v =>
    match c.decode v with
    | .ok y => (.ok (), .value c y)
    | .error e => (.error e, .value c x)
  | .record inner d, i :: rest, v => (inner.assign d (i :: rest) v).map id (.record inner)
  | s, _, _ => (.error (.unknownField missing), s)

theorem Slot.assign_value_of_ok {c : Codec} {v : Value} {y : c.Content} (h : c.decode v = .ok y)
    (missing : Path) (x : c.Content) :
    Slot.assign missing (.value c x) [] v = (.ok (), .value c y) := by
  rw [Slot.assign, h]

theorem Slot.assign_value_of_error {c : Codec} {v : Value} {e : CoerceError}
    (h : c.decode v = .error e) (missing : Path) (x : c.Content) :
    Slot.assign missing (.value c x) [] v = (.error e, .value c x) := by
  rw [Slot.assign, h]

/-- No arm takes a path that is empty or begins before the fields that are left. -/
theorem getFrom_before (L : Layout) (d : L.Data) {index : Nat} {path : Path}
    (h : ∀ i ∈ path.head?, i < index) : L.getFrom index d path = .error (.unknownField path) := by
  induction L generalizing index with
  | nil => rfl
  | unmapped Content L ih => exact ih d.2 h
  | value c L ih =>
    have hne : path ≠ [index] := by
      rintro rfl
      exact absurd (h index rfl) (Nat.lt_irrefl index)
    rw [getFrom_behind_value hne]
    exact ih d.2 fun i hi => Nat.lt_succ_of_lt (h i hi)
  | record inner L _ ih =>
    have hne : path.head? ≠ some index := fun hi => Nat.lt_irrefl index (h index hi)
    rw [getFrom_behind_record (.inl hne)]
    exact ih d.2 fun i hi => Nat.lt_succ_of_lt (h i hi)

theorem assignFrom_before (L : Layout) (d : L.Data) {index : Nat} {path : Path}
    (h : ∀ i ∈ path.head?, i < index) (v : Value) :
    L.assignFrom index d path v = (.error (.unknownField path), d) := by
  induction L generalizing index with
  | nil => rfl
  | unmapped Content L ih =>
    rw [assignFrom, ih d.2 h]
    rfl
  | value c L ih =>
    have hne : path ≠ [index] := by
      rintro rfl
      exact absurd (h index rfl) (Nat.lt_irrefl index)
    rw [assignFrom_behind_value hne, ih d.2 fun i hi => Nat.lt_succ_of_lt (h i hi)]
    rfl
  | record inner L _ ih =>
    have hne : path.head? ≠ some index := fun hi => Nat.lt_irrefl index (h index hi)
    rw [assignFrom_behind_record (.inl hne), ih d.2 fun i hi => Nat.lt_succ_of_lt (h i hi)]
    rfl

/-- Reading goes on at the field whose number comes first. -/
theorem getFrom_cons (L : Layout) (d : L.Data) (index n : Nat) (rest : Path) :
    L.getFrom index d ((index + n) :: rest) =
      ((L.slots d)[n]?.map (·.read ((index + n) :: rest) rest)).getD
        (.error (.unknownField ((index + n) :: rest))) := by
  induction L generalizing index n with
  | nil => rfl
  | unmapped Content L ih => exact ih d.2 index n
  | value c L ih =>
    cases n with
    | zero =>
      cases rest with
      | nil => exact getFrom_value d
      | cons j rest =>
        rw [getFrom_behind_value (by simp), getFrom_before L d.2 (by simp)]
        rfl
    | succ n =>
      have hnext : index + (n + 1) = index + 1 + n := by omega
      rw [getFrom_behind_value (by simp), hnext, ih]
      rfl
  | record inner L _ ih =>
    cases n with
    | zero =>
      cases rest with
      | nil =>
        rw [getFrom_behind_record (.inr rfl), getFrom_before L d.2 (by simp)]
        rfl
      | cons j rest => exact getFrom_record (by simp) d
    | succ n =>
      have hnext : index + (n + 1) = index + 1 + n := by omega
      rw [getFrom_behind_record (.inl (by simp)), hnext, ih]
      rfl

/-- Setting goes on at the field whose number comes first, and only this field can change. -/
theorem assignFrom_cons (L : Layout) (d : L.Data) (index n : Nat) (rest : Path) (v : Value) :
    (L.assignFrom index d ((index + n) :: rest) v).1 =
      ((L.slots d)[n]?.map fun s => (s.assign ((index + n) :: rest) rest v).1).getD
        (.error (.unknownField ((index + n) :: rest))) ∧
    L.slots (L.assignFrom index d ((index + n) :: rest) v).2 =
      (L.slots d).modify n fun s => (s.assign ((index + n) :: rest) rest v).2 := by
  induction L generalizing index n with
  | nil => exact ⟨rfl, by simp [slots]⟩
  | unmapped Content L ih => exact ih d.2 index n
  | value c L ih =>
    cases n with
    | zero =>
      rw [Nat.add_zero]
      cases rest with
      | nil =>
        show _ = (Slot.assign [index] (.value c d.1) [] v).1 ∧
          _ = (Slot.assign [index] (.value c d.1) [] v).2 :: _
        cases hv : c.decode v with
        | ok y =>
          rw [assignFrom_value_of_ok hv, Slot.assign_value_of_ok hv]
          exact ⟨rfl, rfl⟩
        | error e =>
          rw [assignFrom_value_of_error hv, Slot.assign_value_of_error hv]
          exact ⟨rfl, rfl⟩
      | cons j rest =>
        rw [assignFrom_behind_value (by simp), assignFrom_before L d.2 (by simp)]
        exact ⟨rfl, rfl⟩
    | succ n =>
      have hnext : index + (n + 1) = index + 1 + n := by omega
      rw [assignFrom_behind_value (by simp), hnext]
      obtain ⟨hresult, hslots⟩ := ih d.2 (index + 1) n
      exact ⟨hresult, congrArg (_ :: ·) hslots⟩
  | record inner L _ ih =>
    cases n with
    | zero =>
      rw [Nat.add_zero]
      cases rest with
      | nil =>
        rw [assignFrom_behind_record (.inr rfl), assignFrom_before L d.2 (by simp)]
        exact ⟨rfl, rfl⟩
      | cons j rest =>
        rw [assignFrom_record (by simp)]
        exact ⟨rfl, rfl⟩
    | succ n =>
      have hnext : index + (n + 1) = index + 1 + n := by omega
      rw [assignFrom_behind_record (.inl (by simp)), hnext]
      obtain ⟨hresult, hslots⟩ := ih d.2 (index + 1) n
      exact ⟨hresult, congrArg (_ :: ·) hslots⟩

theorem get_nil (L : Layout) (d : L.Data) : L.get d [] = .error (.unknownField []) :=
  getFrom_before L d fun _ h => absurd h (by simp)

theorem get_cons (L : Layout) (d : L.Data) (i : Nat) (rest : Path) :
    L.get d (i :: rest) =
      ((L.slots d)[i]?.map (·.read (i :: rest) rest)).getD
        (.error (.unknownField (i :: rest))) := by
  have h := getFrom_cons L d 0 i rest
  rwa [Nat.zero_add] at h

theorem get_eq_read (L : Layout) (d : L.Data) (path : Path) :
    L.get d path = (Slot.record L d).read path path := by
  cases path with
  | nil => exact get_nil L d
  | cons i rest => rfl

theorem assign_nil (L : Layout) (d : L.Data) (v : Value) :
    L.assign d [] v = (.error (.unknownField []), d) :=
  assignFrom_before L d (fun _ h => absurd h (by simp)) v

theorem fst_assign_cons (L : Layout) (d : L.Data) (i : Nat) (rest : Path) (v : Value) :
    (L.assign d (i :: rest) v).1 =
      ((L.slots d)[i]?.map fun s => (s.assign (i :: rest) rest v).1).getD
        (.error (.unknownField (i :: rest))) := by
  have h := (assignFrom_cons L d 0 i rest v).1
  rwa [Nat.zero_add] at h

theorem slots_assign_cons (L : Layout) (d : L.Data) (i : Nat) (rest : Path) (v : Value) :
    L.slots (L.assign d (i :: rest) v).2 =
      (L.slots d).modify i fun s => (s.assign (i :: rest) rest v).2 := by
  have h := (assignFrom_cons L d 0 i rest v).2
  rwa [Nat.zero_add] at h

theorem assign_eq_assign (L : Layout) (d : L.Data) (path : Path) (v : Value) :
    (L.assign d path v).map id (Slot.record L) = (Slot.record L d).assign path path v := by
  cases path with
  | nil =>
    rw [assign_nil]
    rfl
  | cons i rest => rfl

end Layout
end TableRecords
