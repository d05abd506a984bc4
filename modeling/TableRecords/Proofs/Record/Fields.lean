import TableRecords.Proofs.Mapping.Paths
import TableRecords.Proofs.Record.Lens

/-!
# The fields of a record type

What scanning and binding need to know of the accessors of a record type: the paths that its tags
address lead to places that are read and written independently of each other (`RecordType.Fields`).
What a place holds goes to a column and back by a `Codec`, one of the library or one of a user's
own.  The accessors of every shape are of this kind (`Shape.fields`).

`Fields.Keeps` and `Fields.Decodes` say what became of the field at a path, and `Fields.Fills` what
became of all fields: some hold what was supplied for them, and the others what they held.
-/

namespace TableRecords

/-- What a field holds, and how it goes to a column and back. -/
structure Codec where
  Content : Type
  encode : Content → Except CoerceError Value
  decode : Value → Except CoerceError Content

/-- The codec of a field type of the library. -/
def FieldType.codec (t : FieldType) : Codec := ⟨t.Carrier, t.encode, t.decode⟩

/-- What is held after an integer was taken is bound, and as a zero only if the integer is. -/
def Codec.KeepsAssigned (c : Codec) : Prop :=
  ∀ n x, c.decode (.integer n) = .ok x → ∃ v, c.encode x = .ok v ∧ (v.isZero = true → n = 0)

theorem FieldType.keepsAssigned (t : FieldType) : t.codec.KeepsAssigned :=
  fun _ _ h => FieldType.isZero_of_decode_integer h

/-- The independent places that the accessors of a record type read and write. -/
structure RecordType.Fields {ρ : Type} (type : RecordType ρ) where
  Place : Type
  path : Place → Path
  codec : Place → Codec
  read : (p : Place) → ρ → (codec p).Content
  write : (p : Place) → (codec p).Content → ρ → ρ
  path_injective : Function.Injective path
  get_path : ∀ p d, type.get d (path p) = (codec p).encode (read p d)
  set_path : ∀ p d v, type.set d (path p) v = ((codec p).decode v).map fun x => write p x d
  read_write : ∀ p x d, read p (write p x d) = x
  read_write_of_ne : ∀ p q x d, q ≠ p → read q (write p x d) = read q d
  exists_place : ∀ path', FieldTag.Addresses type.tags path' → ∃ p, path p = path'

namespace RecordType.Fields

variable {ρ : Type} {type : RecordType ρ} (F : type.Fields)

/-- The field at a path holds in `d'` what it holds in `d`. -/
def Keeps (path : Path) (d d' : ρ) : Prop := ∃ p, F.path p = path ∧ F.read p d' = F.read p d

/-- The field at a path holds what a value decodes to. -/
def Decodes (path : Path) (v : Value) (d : ρ) : Prop :=
  ∃ p, F.path p = path ∧ (F.codec p).decode v = .ok (F.read p d)

variable {F}

theorem Keeps.trans {path : Path} {d₁ d₂ d₃ : ρ} (h : F.Keeps path d₁ d₂)
    (h' : F.Keeps path d₂ d₃) : F.Keeps path d₁ d₃ := by
  obtain ⟨p, hp, heq⟩ := h
  obtain ⟨q, hq, heq'⟩ := h'
  obtain rfl : p = q := F.path_injective (hp.trans hq.symm)
  exact ⟨p, hp, heq'.trans heq⟩

theorem Decodes.keep {path : Path} {v : Value} {d d' : ρ} (h : F.Decodes path v d)
    (h' : F.Keeps path d d') : F.Decodes path v d' := by
  obtain ⟨p, hp, hdecode⟩ := h
  obtain ⟨q, hq, heq⟩ := h'
  obtain rfl : p = q := F.path_injective (hp.trans hq.symm)
  exact ⟨p, hp, heq ▸ hdecode⟩

theorem keeps_refl {path : Path} (h : FieldTag.Addresses type.tags path) (d : ρ) :
    F.Keeps path d d := by
  obtain ⟨p, hp⟩ := F.exists_place path h
  exact ⟨p, hp, rfl⟩

/-- What was set is held, and nothing else changes. -/
theorem of_set_eq_ok {path : Path} {v : Value} {d d' : ρ}
    (h : FieldTag.Addresses type.tags path) (hset : type.set d path v = .ok d') :
    F.Decodes path v d' ∧ ∀ other, FieldTag.Addresses type.tags other → other ≠ path →
      F.Keeps other d d' := by
  obtain ⟨p, rfl⟩ := F.exists_place path h
  rw [F.set_path] at hset
  cases hx : (F.codec p).decode v with
  | error e =>
    rw [hx] at hset
    exact absurd hset (by simp [Except.map])
  | ok x =>
    rw [hx] at hset
    obtain rfl := Except.ok.inj hset
    refine ⟨⟨p, rfl, ?_⟩, fun other hother hne => ?_⟩
    · rw [F.read_write, hx]
    · obtain ⟨q, rfl⟩ := F.exists_place other hother
      exact ⟨q, rfl, F.read_write_of_ne p q x d fun heq => hne (heq ▸ rfl)⟩

/-- A field takes a value that decodes. -/
theorem set_of_decode {p : F.Place} {v : Value} {x : (F.codec p).Content}
    (hx : (F.codec p).decode v = .ok x) (d : ρ) :
    type.set d (F.path p) v = .ok (F.write p x d) := by
  rw [F.set_path, hx]
  rfl

theorem isZero_of_set_integer (hcodec : ∀ p, (F.codec p).KeepsAssigned) {path : Path}
    (haddress : FieldTag.Addresses type.tags path) {n : Int64} {d d' : ρ}
    (h : type.set d path (.integer n) = .ok d') :
    ∃ v, type.get d' path = .ok v ∧ (v.isZero = true → n = 0) := by
  obtain ⟨p, rfl⟩ := F.exists_place path haddress
  obtain ⟨⟨q, hq, hdecode⟩, -⟩ := F.of_set_eq_ok haddress h
  obtain rfl := F.path_injective hq
  rw [F.get_path]
  exact hcodec q n _ hdecode

/-! ## Filling fields in -/

variable (F) in
/-- Mapped fields at some places hold what a supplied value decodes to, and all other fields hold
what they held. -/
structure Fills (m : Mapping) (is : List m.Index) (supplied : m.Index → Value → Prop)
    (d d' : ρ) : Prop where
  decodes : ∀ i ∈ is, ∃ v, supplied i v ∧ F.Decodes (m.field i).path v d'
  keeps : ∀ path, FieldTag.Addresses type.tags path → (∀ i ∈ is, path ≠ (m.field i).path) →
    F.Keeps path d d'

variable {m : Mapping} {is js : List m.Index} {supplied : m.Index → Value → Prop} {d d₁ d₂ : ρ}

theorem fills_nil (d : ρ) : F.Fills m [] supplied d d :=
  ⟨fun _ hi => absurd hi List.not_mem_nil, fun _ hpath _ => F.keeps_refl hpath d⟩

theorem fills_of_set (hm : type.mapping = .ok m) {i : m.Index} {v : Value} (hv : supplied i v)
    (hset : type.set d (m.field i).path v = .ok d₁) : F.Fills m [i] supplied d d₁ := by
  obtain ⟨hdecodes, hothers⟩ := F.of_set_eq_ok (addresses_path hm i) hset
  constructor
  · intro j hj
    obtain rfl := List.mem_singleton.1 hj
    exact ⟨v, hv, hdecodes⟩
  · exact fun path hpath hne => hothers path hpath (hne i List.mem_cons_self)

/-- Fields that are filled in later leave those that were filled in before. -/
theorem Fills.append (hm : type.mapping = .ok m) (h : F.Fills m is supplied d d₁)
    (h' : F.Fills m js supplied d₁ d₂) : F.Fills m (is ++ js) supplied d d₂ := by
  constructor
  · intro i hi
    by_cases hjs : i ∈ js
    · exact h'.decodes i hjs
    · have his : i ∈ is := (List.mem_append.1 hi).resolve_right hjs
      obtain ⟨v, hv, hdecodes⟩ := h.decodes i his
      refine ⟨v, hv, hdecodes.keep (h'.keeps _ (addresses_path hm i) fun j hj hne => hjs ?_)⟩
      rwa [path_inj hm hne]
  · intro path hpath hne
    have hbefore := h.keeps path hpath fun i hi => hne i (List.mem_append_left js hi)
    exact hbefore.trans (h'.keeps path hpath fun i hi => hne i (List.mem_append_right is hi))

theorem Fills.of_mem_iff (h : F.Fills m is supplied d d₁) (hmem : ∀ i, i ∈ js ↔ i ∈ is) :
    F.Fills m js supplied d d₁ :=
  ⟨fun i hi => h.decodes i ((hmem i).1 hi),
    fun path hpath hne => h.keeps path hpath fun i hi => hne i ((hmem i).2 hi)⟩

theorem Fills.mono {supplied' : m.Index → Value → Prop} (h : F.Fills m is supplied d d₁)
    (hsupplied : ∀ i ∈ is, ∀ v, supplied i v → supplied' i v) :
    F.Fills m is supplied' d d₁ := by
  refine ⟨fun i hi => ?_, h.keeps⟩
  obtain ⟨v, hv, hdecodes⟩ := h.decodes i hi
  exact ⟨v, hsupplied i hi v hv, hdecodes⟩

theorem Fills.keeps_field (hm : type.mapping = .ok m) (h : F.Fills m is supplied d d₁)
    {i : m.Index} (hi : i ∉ is) : F.Keeps (m.field i).path d d₁ := by
  refine h.keeps _ (addresses_path hm i) fun j hj hne => hi ?_
  rwa [path_inj hm hne]

theorem Fills.keeps_remainder (hm : type.mapping = .ok m) (h : F.Fills m is supplied d d₁)
    {r : RemainderField} (hr : r ∈ m.remainder) : F.Keeps r.path d d₁ :=
  h.keeps _ (addresses_remainder hm hr) fun i _ => (path_ne_remainder hm hr i).symm

end RecordType.Fields

/-! ## Shapes -/

namespace Shape

theorem exists_leaf_plain {s : Shape} {i : Nat} {tag : FieldTag} (hi : s.tags[i]? = some tag)
    (hplain : tag.embedded = none) :
    ∃ leaf : Leaf s, ∀ first, leaf.pathFrom first = [first + i] := by
  induction s generalizing i with
  | nil => exact absurd hi (by simp [tags])
  | plain field text t rest ih =>
    cases i with
    | zero => exact ⟨.here, fun _ => rfl⟩
    | succ i =>
      obtain ⟨leaf, hleaf⟩ := ih hi
      refine ⟨.behindPlain leaf, fun first => ?_⟩
      rw [Leaf.pathFrom, hleaf, Nat.add_right_comm, Nat.add_assoc]
  | embed field text inner rest ihInner ih =>
    cases i with
    | zero =>
      obtain rfl := Option.some.inj hi
      exact absurd hplain (by simp [FieldTag.embedding])
    | succ i =>
      obtain ⟨leaf, hleaf⟩ := ih hi
      refine ⟨.behindEmbed leaf, fun first => ?_⟩
      rw [Leaf.pathFrom, hleaf, Nat.add_right_comm, Nat.add_assoc]

theorem exists_leaf_inner {s : Shape} {i j : Nat} {outer tag : FieldTag} {inner : List FieldTag}
    (hi : s.tags[i]? = some outer) (houter : outer.embedded = some inner)
    (hj : inner[j]? = some tag) (hplain : tag.embedded = none) :
    ∃ leaf : Leaf s, ∀ first, leaf.pathFrom first = [first + i, j] := by
  induction s generalizing i with
  | nil => exact absurd hi (by simp [tags])
  | plain field text t rest ih =>
    cases i with
    | zero =>
      obtain rfl := Option.some.inj hi
      exact absurd houter (by simp [FieldTag.plain])
    | succ i =>
      obtain ⟨leaf, hleaf⟩ := ih hi
      refine ⟨.behindPlain leaf, fun first => ?_⟩
      rw [Leaf.pathFrom, hleaf, Nat.add_right_comm, Nat.add_assoc]
  | embed field text s rest ihInner ih =>
    cases i with
    | zero =>
      obtain rfl := Option.some.inj hi
      obtain rfl := Option.some.inj houter
      obtain ⟨leaf, hleaf⟩ := exists_leaf_plain hj hplain
      refine ⟨.inside leaf, fun first => ?_⟩
      rw [Leaf.pathFrom, hleaf, Nat.zero_add, Nat.add_zero]
    | succ i =>
      obtain ⟨leaf, hleaf⟩ := ih hi
      refine ⟨.behindEmbed leaf, fun first => ?_⟩
      rw [Leaf.pathFrom, hleaf, Nat.add_right_comm, Nat.add_assoc]

/-- Every addressed path leads to a leaf. -/
theorem exists_leaf {s : Shape} {path : Path} (h : FieldTag.Addresses s.tags path) :
    ∃ leaf : Leaf s, leaf.path = path := by
  cases h with
  | plain hi hplain =>
    obtain ⟨leaf, hleaf⟩ := exists_leaf_plain hi hplain
    exact ⟨leaf, by rw [Leaf.path, hleaf, Nat.zero_add]⟩
  | inner hi houter hj hplain =>
    obtain ⟨leaf, hleaf⟩ := exists_leaf_inner hi houter hj hplain
    exact ⟨leaf, by rw [Leaf.path, hleaf, Nat.zero_add]⟩

/-- **The fields of a shape are its leaves.** -/
def fields (s : Shape) (typeName : String) : (s.recordType typeName).Fields where
  Place := Leaf s
  path := Leaf.path
  codec leaf := leaf.type.codec
  read := Leaf.get
  write := Leaf.set
  path_injective := Leaf.path_injective
  get_path leaf d := by
    show s.getValue d leaf.path = _
    rw [getValue, leafAt_path]
    rfl
  set_path leaf d v := by
    show s.setValue d leaf.path v = _
    rw [setValue, leafAt_path]
    rfl
  read_write := Leaf.get_set
  read_write_of_ne leaf other x d h := Leaf.get_set_of_ne h x d
  exists_place _ h := exists_leaf h

end Shape

/-! ## Notes -/

/-- Notes: two of their columns differ in letter case only, and one is of an embedded record. -/
def noteShape : Shape :=
  .plain "id" "id,pk" (.int .int64)
    (.plain "code" "code" .text
      (.plain "label" "CODE,generated" .text
        (.embed "audit" "audit,embed" (.plain "stamp" "stamp,generated" .text .nil) .nil)))

/-- The type of notes. -/
def noteType : RecordType noteShape.Data := noteShape.recordType "Note"

/-- The fields of notes. -/
def noteFields : noteType.Fields := noteShape.fields "Note"

/-- The columns of notes. -/
def noteMapping : Mapping :=
  ⟨"Note", [⟨"id", "id", [0], true, false⟩, ⟨"code", "code", [1], false, false⟩,
    ⟨"CODE", "label", [2], false, true⟩, ⟨"stamp", "audit.stamp", [3, 0], false, true⟩], [0],
    ⟨[("id", 0), ("code", 1), ("CODE", 2), ("stamp", 3)], [("id", 0), ("code", 1), ("stamp", 3)]⟩,
    none⟩

theorem mapping_noteType : noteType.mapping = .ok noteMapping := by
  rfl

/-- The key of notes. -/
def noteKey : noteMapping.Index := ⟨0, by decide⟩

/-- What the database assigns of a new note: the id, the label and the stamp. -/
def noteReadBack : List noteMapping.Index := [noteKey, ⟨2, by decide⟩, ⟨3, by decide⟩]

/-- A note with an id, a code, a label and a stamp. -/
def noteOf (id : Int64) (code label stamp : String) : noteShape.Data :=
  (⟨id.toInt, IntKind.int64_holds id⟩, code, label, (stamp, ()), ())

end TableRecords
