import TableRecords.Proofs.Mapping.Modifier
import TableRecords.Proofs.Record.Fields
import TableRecords.Record.Declaration

/-!
# Derived accessors

The tags that a declaration stands for and the arms of its two accessors are three lists of one
length: number `i` of each is about the `i`-th field that carries a tag, and an arm takes the paths
of an embedded record just where the tag names one (`DerivedRecord.Aligned`).  The two readers of a
tag agree on where that is (`TaggedField.embed_of_parse`).

A path is handled where an arm takes it and what is left of it is handled in the record of that
field (`Handles`).  The paths that are handled are those of the leaves of the shape that the
declaration gives (`handles_iff`), and those are all that a mapping goes by:

    (namedFields fields).derive = .ok r → r.Aligned _ ∧ …    (aligned_of_derive)
-/

namespace TableRecords

open Declaration

/-! ## Fields that carry a tag -/

/-- The text of a tag attribute that holds one. -/
def TagAttribute.tag? : Option TagAttribute → Option String
  | some (tag text) => some text
  | _ => none

/-- A field with its tag, if it carries one. -/
def DeclaredField.carried? (f : DeclaredField) : Option TaggedField :=
  (f.attributes.findSome? TagAttribute.tag?).map fun text => ⟨f.name, f.typeName, text⟩

namespace DeclaredField

/-- Behind a tag no other is accepted. -/
theorem tagAmong_of_some {tag : String} {attributes : List (Option TagAttribute)}
    {found : Option String} (h : tagAmong (some tag) attributes = .ok found) :
    found = some tag := by
  induction attributes with
  | nil => exact (Except.ok.inj h).symm
  | cons a attributes ih =>
    cases a with
    | none => exact ih h
    | some a => exact absurd h (by simp [tagAmong])

theorem text_eq_ok {a : TagAttribute} {text : String} (h : a.text = .ok text) : a = .tag text := by
  cases a with
  | tag t => rw [Except.ok.inj h]
  | _ => exact absurd h (by simp [TagAttribute.text])

/-- The tag that is found is the only one. -/
theorem tagAmong_of_none {attributes : List (Option TagAttribute)} {found : Option String}
    (h : tagAmong none attributes = .ok found) :
    found = attributes.findSome? TagAttribute.tag? := by
  induction attributes with
  | nil => exact (Except.ok.inj h).symm
  | cons a attributes ih =>
    cases a with
    | none => exact ih h
    | some a =>
      obtain ⟨text, htext, hrest⟩ := bind_eq_ok_iff.1 (show (a.text >>= _) = _ from h)
      obtain rfl := text_eq_ok htext
      exact tagAmong_of_some hrest

/-- The tagged fields of a declaration are those that carry a tag, in order of declaration. -/
theorem tagged_eq_ok {fields : List DeclaredField} {fs : List TaggedField}
    (h : tagged fields = .ok fs) : fs = fields.filterMap carried? := by
  induction fields generalizing fs with
  | nil => exact (Except.ok.inj h).symm
  | cons f fields ih =>
    obtain ⟨found, hfound, h⟩ :=
      bind_eq_ok_iff.1 (show (tagAmong none f.attributes >>= _) = _ from h)
    have hfound := tagAmong_of_none hfound
    cases found with
    | none =>
      rw [List.filterMap_cons_none (by rw [carried?, ← hfound]; rfl)]
      exact ih h
    | some tag =>
      obtain ⟨rest, hrest, h⟩ := bind_eq_ok_iff.1 h
      obtain rfl := Except.ok.inj h
      rw [List.filterMap_cons_some (by rw [carried?, ← hfound]; rfl), ih hrest]

end DeclaredField

/-- Whether a field holds a record is told by its tag alone, and told alike when the tag is read. -/
theorem TaggedField.embed_of_parse {f : TaggedField} {p : Tag} (h : Tag.parse f.tag = .ok p) :
    p.embed = f.isEmbed := by
  have hembed : p.embed = true ↔ _ := Tag.has_of_parse_iff h .embed
  simp only [Tag.ofName?_eq_embed_iff, exists_eq_right] at hembed
  rw [Bool.eq_iff_iff, hembed, TaggedField.isEmbed, decide_eq_true_iff]

/-! ## Tags and arms -/

theorem Declaration.derive_eq_ok {fields : List DeclaredField} {r : DerivedRecord}
    (h : (namedFields fields).derive = .ok r) :
    r = ⟨tags (fields.filterMap DeclaredField.carried?),
      arms (fields.filterMap DeclaredField.carried?),
      arms (fields.filterMap DeclaredField.carried?)⟩ := by
  obtain ⟨fs, hfs, h⟩ := bind_eq_ok_iff.1 (show (DeclaredField.tagged fields >>= _) = _ from h)
  rw [← DeclaredField.tagged_eq_ok hfs]
  exact (Except.ok.inj h).symm

theorem Declaration.getElem?_arms (fs : List TaggedField) (i : Nat) :
    (arms fs)[i]? = fs[i]?.map fun f => ⟨i, f.name, f.isEmbed⟩ := by
  unfold arms
  rw [List.getElem?_map, List.getElem?_zipIdx, Option.map_map, Nat.zero_add]
  rfl

theorem Declaration.getElem?_tags (fs : List TaggedField) (i : Nat) :
    (tags fs)[i]? =
      fs[i]?.map fun f => ⟨f.name, f.tag, if f.isEmbed then some f.typeName else none⟩ :=
  List.getElem?_map

/-- Tags and arms are those of the fields that carry tags, one by one.  The arm takes the paths of
an embedded record where the tag carries its tags, and so says a tag that can be read. -/
structure DerivedRecord.Aligned (r : DerivedRecord) (carried : List TaggedField) : Prop where
  length_tags : r.tags.length = carried.length
  length_getArms : r.getArms.length = carried.length
  length_setArms : r.setArms.length = carried.length
  position : ∀ (i : Nat) (f : TaggedField), carried[i]? = some f →
    ∃ (embedded : Option String) (isEmbed : Bool),
    r.tags[i]? = some (⟨f.name, f.tag, embedded⟩ : DeclaredTag) ∧
    r.getArms[i]? = some (⟨i, f.name, isEmbed⟩ : AccessorArm) ∧
    r.setArms[i]? = some (⟨i, f.name, isEmbed⟩ : AccessorArm) ∧
    (isEmbed = true ↔ embedded = some f.typeName) ∧ (isEmbed = false ↔ embedded = none) ∧
    ∀ p, Tag.parse f.tag = .ok p → p.embed = isEmbed

theorem aligned_carried (fs : List TaggedField) :
    (⟨tags fs, arms fs, arms fs⟩ : DerivedRecord).Aligned fs where
  length_tags := by simp [tags]
  length_getArms := by simp [arms]
  length_setArms := by simp [arms]
  position i f hi := by
    refine ⟨if f.isEmbed then some f.typeName else none, f.isEmbed, ?_, ?_, ?_, ?_, ?_,
      fun p => TaggedField.embed_of_parse⟩
    · show (tags fs)[i]? = _
      rw [getElem?_tags, hi, Option.map_some]
    · show (arms fs)[i]? = _
      rw [getElem?_arms, hi, Option.map_some]
    · show (arms fs)[i]? = _
      rw [getElem?_arms, hi, Option.map_some]
    · cases f.isEmbed <;> simp
    · cases f.isEmbed <;> simp

/-! ## Paths through arms -/

/-- What the names of types stand for: types of fields, and declarations of records. -/
structure TypeNames where
  value? : String → Option FieldType
  record? : String → Option (List DeclaredField)

/-- The shape of a record whose fields carry tags.  The records in it are derived too. -/
inductive ShapeOf (types : TypeNames) : List TaggedField → Shape → Prop where
  | nil : ShapeOf types [] .nil
  | plain {f : TaggedField} {fs : List TaggedField} {t : FieldType} {rest : Shape}
    (hembed : f.isEmbed = false) (htype : types.value? f.typeName = some t)
    (hrest : ShapeOf types fs rest) : ShapeOf types (f :: fs) (.plain f.name f.tag t rest)
  | embed {f : TaggedField} {fs : List TaggedField} {fields : List DeclaredField}
    {r : DerivedRecord} {inner rest : Shape} (hembed : f.isEmbed = true)
    (htype : types.record? f.typeName = some fields) (hderive : (namedFields fields).derive = .ok r)
    (hinner : ShapeOf types (fields.filterMap DeclaredField.carried?) inner)
    (hrest : ShapeOf types fs rest) : ShapeOf types (f :: fs) (.embed f.name f.tag inner rest)

/-- Declared tags with the tags of the records that they name. -/
inductive TagsOf (types : TypeNames) : List DeclaredTag → List FieldTag → Prop where
  | nil : TagsOf types [] []
  | plain {field tag : String} {ds : List DeclaredTag} {ts : List FieldTag}
    (hrest : TagsOf types ds ts) :
    TagsOf types (⟨field, tag, none⟩ :: ds) (.plain field tag :: ts)
  | embedding {field tag typeName : String} {fields : List DeclaredField} {r : DerivedRecord}
    {inner : List FieldTag} {ds : List DeclaredTag} {ts : List FieldTag}
    (htype : types.record? typeName = some fields) (hderive : (namedFields fields).derive = .ok r)
    (hinner : TagsOf types r.tags inner) (hrest : TagsOf types ds ts) :
    TagsOf types (⟨field, tag, some typeName⟩ :: ds) (.embedding field tag inner :: ts)

/-- The first arm that takes a path, and what it leaves of it.  An arm of a value takes just the
path of its field, and an arm of a record those that go on. -/
def AccessorArm.select (arms : List AccessorArm) : Path → Option (AccessorArm × Path)
  | [] => none
  | i :: rest =>
    (arms.find? fun a => a.index == i && a.isEmbed == !rest.isEmpty).map fun a => (a, rest)

/-- A path is handled by arms: one takes it, and what it leaves is handled by those of the record
that its field holds. -/
inductive Handles (types : TypeNames) (armsOf : DerivedRecord → List AccessorArm) :
    DerivedRecord → Path → Prop where
  | value {r : DerivedRecord} {path : Path} {a : AccessorArm}
    (harm : AccessorArm.select (armsOf r) path = some (a, [])) : Handles types armsOf r path
  | record {r inner : DerivedRecord} {path rest : Path} {a : AccessorArm} {tag : DeclaredTag}
    {typeName : String} {fields : List DeclaredField}
    (harm : AccessorArm.select (armsOf r) path = some (a, rest))
    (htag : r.tags[a.index]? = some tag) (hembedded : tag.embedded = some typeName)
    (htype : types.record? typeName = some fields)
    (hderive : (namedFields fields).derive = .ok inner) (hrest : Handles types armsOf inner rest) :
    Handles types armsOf r path

/-- The arm of a field takes the paths that fit it. -/
theorem AccessorArm.select_arms {fs : List TaggedField} {i : Nat} {f : TaggedField} {rest : Path}
    (hi : fs[i]? = some f) (hrest : f.isEmbed = !rest.isEmpty) :
    select (arms fs) (i :: rest) = some (⟨i, f.name, f.isEmbed⟩, rest) := by
  have hfound : (arms fs).find? (fun a => a.index == i && a.isEmbed == !rest.isEmpty) =
      some ⟨i, f.name, f.isEmbed⟩ := by
    rw [List.find?_eq_some_iff_getElem]
    have harm := getElem?_arms fs i
    rw [hi, Option.map_some] at harm
    obtain ⟨hlt, hget⟩ := List.getElem?_eq_some_iff.1 harm
    refine ⟨by simp [hrest], i, hlt, hget, fun j hj => ?_⟩
    have hother := getElem?_arms fs j
    rw [List.getElem?_eq_getElem (hj.trans hlt)] at hother
    obtain ⟨g, -, hg⟩ := Option.map_eq_some_iff.1 hother.symm
    rw [← hg]
    simp [Nat.ne_of_lt hj]
  rw [select, hfound]
  rfl

/-- An arm takes the paths that begin with its field and fit it. -/
theorem AccessorArm.of_select_arms {fs : List TaggedField} {path rest : Path} {a : AccessorArm}
    (h : select (arms fs) path = some (a, rest)) :
    ∃ f, fs[a.index]? = some f ∧ f.isEmbed = !rest.isEmpty ∧ path = a.index :: rest := by
  cases path with
  | nil => exact absurd h (by simp [select])
  | cons i path =>
    obtain ⟨b, hfound, hb⟩ := Option.map_eq_some_iff.1 h
    obtain ⟨rfl, rfl⟩ := Prod.mk.inj hb
    have hfit := List.find?_some hfound
    obtain ⟨j, hj⟩ := List.getElem?_of_mem (List.mem_of_find?_eq_some hfound)
    rw [getElem?_arms] at hj
    obtain ⟨f, hf, rfl⟩ := Option.map_eq_some_iff.1 hj
    simp only [Bool.and_eq_true, beq_iff_eq] at hfit
    exact ⟨f, hf, hfit.2, by rw [hfit.1]⟩

/-! ## Paths to leaves -/

namespace Shape.Leaf

theorem pathFrom_behindPlain {field tag : String} {t : FieldType} {rest : Shape} {leaf : rest.Leaf}
    {i : Nat} {path : Path} (h : ∀ first, leaf.pathFrom first = (first + i) :: path) (first : Nat) :
    (@behindPlain field tag t rest leaf).pathFrom first =
      (first + (i + 1)) :: path := by
  rw [pathFrom, h, Nat.add_right_comm, Nat.add_assoc]

theorem pathFrom_behindEmbed {field tag : String} {inner rest : Shape} {leaf : rest.Leaf}
    {i : Nat} {path : Path} (h : ∀ first, leaf.pathFrom first = (first + i) :: path) (first : Nat) :
    (@behindEmbed field tag inner rest leaf).pathFrom first =
      (first + (i + 1)) :: path := by
  rw [pathFrom, h, Nat.add_right_comm, Nat.add_assoc]

end Shape.Leaf

/-- A tag that carries the tags of a record is that of a field of this record. -/
theorem of_embedded_tag {fields : List DeclaredField} {r : DerivedRecord}
    (hr : (namedFields fields).derive = .ok r) {i : Nat} {f : TaggedField}
    (hi : (fields.filterMap DeclaredField.carried?)[i]? = some f) {tag : DeclaredTag}
    (htag : r.tags[i]? = some tag) {typeName : String} (hembedded : tag.embedded = some typeName) :
    f.isEmbed = true ∧ typeName = f.typeName := by
  rw [derive_eq_ok hr] at htag
  change (tags _)[i]? = _ at htag
  rw [getElem?_tags, hi, Option.map_some] at htag
  obtain rfl := Option.some.inj htag
  cases hembed : f.isEmbed with
  | true => exact ⟨rfl, by simpa [hembed] using hembedded.symm⟩
  | false => exact absurd hembedded (by simp [hembed])

namespace ShapeOf

variable {types : TypeNames} {armsOf : DerivedRecord → List AccessorArm}
  (harms : ∀ fields r, (namedFields fields).derive = .ok r →
    armsOf r = arms (fields.filterMap DeclaredField.carried?))

include harms

/-- A path that begins at a field is handled, if what it leaves is handled in the record of that
field. -/
theorem handles_cons {fields : List DeclaredField} {r : DerivedRecord}
    (hr : (namedFields fields).derive = .ok r) {i : Nat} {f : TaggedField} {rest : Path}
    (hi : (fields.filterMap DeclaredField.carried?)[i]? = some f)
    (hrest : f.isEmbed = !rest.isEmpty)
    (hinner : rest = [] ∨ ∃ fields' inner, types.record? f.typeName = some fields' ∧
      (namedFields fields').derive = .ok inner ∧ Handles types armsOf inner rest) :
    Handles types armsOf r (i :: rest) := by
  have harm : AccessorArm.select (armsOf r) (i :: rest) = some (⟨i, f.name, f.isEmbed⟩, rest) := by
    rw [harms fields r hr, AccessorArm.select_arms hi hrest]
  obtain rfl | ⟨fields', inner, htype, hderive, hinner⟩ := hinner
  · exact .value harm
  · have hembed : f.isEmbed = true := by
      cases rest with
      | nil => cases hinner <;> contradiction
      | cons => rw [hrest]; rfl
    have htag : r.tags[i]? = some ⟨f.name, f.tag, some f.typeName⟩ := by
      rw [derive_eq_ok hr]
      show (tags _)[i]? = _
      rw [getElem?_tags, hi, Option.map_some, if_pos hembed]
    exact .record harm htag rfl htype hderive hinner

/-- A leaf lies in a field, and behind it in the record that the field holds. -/
theorem position_of_leaf {fs : List TaggedField} {s : Shape} (h : ShapeOf types fs s)
    (leaf : s.Leaf) :
    ∃ (i : Nat) (f : TaggedField) (rest : Path), fs[i]? = some f ∧
      (∀ first, leaf.pathFrom first = (first + i) :: rest) ∧ f.isEmbed = !rest.isEmpty ∧
      (rest = [] ∨ ∃ fields inner, types.record? f.typeName = some fields ∧
        (namedFields fields).derive = .ok inner ∧ Handles types armsOf inner rest) := by
  induction h with
  | nil => cases leaf
  | @plain f fs t rest hembed htype hrest ih =>
    cases leaf with
    | here => exact ⟨0, f, [], rfl, fun _ => rfl, hembed, .inl rfl⟩
    | behindPlain leaf =>
      obtain ⟨i, g, path, hi, hpath, hfit⟩ := ih leaf
      exact ⟨i + 1, g, path, hi, Shape.Leaf.pathFrom_behindPlain hpath, hfit⟩
  | @embed f fs fields r inner rest hembed htype hderive hinner hrest ihInner ih =>
    cases leaf with
    | inside leaf =>
      obtain ⟨i, g, path, hi, hpath, hfit, hbehind⟩ := ihInner leaf
      have hpath : leaf.pathFrom 0 = i :: path := by rw [hpath, Nat.zero_add]
      refine ⟨0, f, i :: path, rfl, fun first => by rw [Shape.Leaf.pathFrom, hpath, Nat.add_zero],
        hembed, .inr ⟨fields, r, htype, hderive, ?_⟩⟩
      exact handles_cons harms hderive hi hfit hbehind
    | behindEmbed leaf =>
      obtain ⟨i, g, path, hi, hpath, hfit⟩ := ih leaf
      exact ⟨i + 1, g, path, hi, Shape.Leaf.pathFrom_behindEmbed hpath, hfit⟩

/-- The path of every leaf is handled. -/
theorem handles_leaf {fields : List DeclaredField} {r : DerivedRecord}
    (hr : (namedFields fields).derive = .ok r) {s : Shape}
    (h : ShapeOf types (fields.filterMap DeclaredField.carried?) s) (leaf : s.Leaf) :
    Handles types armsOf r leaf.path := by
  obtain ⟨i, f, rest, hi, hpath, hfit, hbehind⟩ := position_of_leaf harms h leaf
  rw [Shape.Leaf.path, hpath, Nat.zero_add]
  exact handles_cons harms hr hi hfit hbehind

omit harms in
/-- A field of a value is a leaf. -/
theorem exists_leaf_of_value {fs : List TaggedField} {s : Shape} (h : ShapeOf types fs s) {i : Nat}
    {f : TaggedField} (hi : fs[i]? = some f) (hembed : f.isEmbed = false) :
    ∃ leaf : s.Leaf, ∀ first, leaf.pathFrom first = [first + i] := by
  induction h generalizing i with
  | nil => exact absurd hi (by simp)
  | plain _ _ _ ih =>
    cases i with
    | zero => exact ⟨.here, fun _ => rfl⟩
    | succ i =>
      obtain ⟨leaf, hleaf⟩ := ih hi
      exact ⟨.behindPlain leaf, Shape.Leaf.pathFrom_behindPlain hleaf⟩
  | embed hrecord _ _ _ _ _ ih =>
    cases i with
    | zero =>
      obtain rfl := Option.some.inj hi
      exact absurd (hrecord.symm.trans hembed) (by simp)
    | succ i =>
      obtain ⟨leaf, hleaf⟩ := ih hi
      exact ⟨.behindEmbed leaf, Shape.Leaf.pathFrom_behindEmbed hleaf⟩

omit harms in
/-- The leaves of a record in a field are leaves behind the field. -/
theorem exists_leaf_of_record {fs : List TaggedField} {s : Shape} (h : ShapeOf types fs s) {i : Nat}
    {f : TaggedField} (hi : fs[i]? = some f) (hembed : f.isEmbed = true) :
    ∃ (fields : List DeclaredField) (inner : Shape), types.record? f.typeName = some fields ∧
      ShapeOf types (fields.filterMap DeclaredField.carried?) inner ∧
      ∀ leaf : inner.Leaf, ∃ outer : s.Leaf, ∀ first,
        outer.pathFrom first = (first + i) :: leaf.path := by
  induction h generalizing i with
  | nil => exact absurd hi (by simp)
  | plain hvalue _ _ ih =>
    cases i with
    | zero =>
      obtain rfl := Option.some.inj hi
      exact absurd (hvalue.symm.trans hembed) (by simp)
    | succ i =>
      obtain ⟨fields, inner, htype, hshape, houter⟩ := ih hi
      refine ⟨fields, inner, htype, hshape, fun leaf => ?_⟩
      obtain ⟨outer, hpath⟩ := houter leaf
      exact ⟨.behindPlain outer, Shape.Leaf.pathFrom_behindPlain hpath⟩
  | @embed g fs fields r inner rest _ htype _ hinner _ _ ih =>
    cases i with
    | zero =>
      obtain rfl := Option.some.inj hi
      exact ⟨fields, inner, htype, hinner, fun leaf => ⟨.inside leaf, fun _ => rfl⟩⟩
    | succ i =>
      obtain ⟨fields, inner, htype, hshape, houter⟩ := ih hi
      refine ⟨fields, inner, htype, hshape, fun leaf => ?_⟩
      obtain ⟨outer, hpath⟩ := houter leaf
      exact ⟨.behindEmbed outer, Shape.Leaf.pathFrom_behindEmbed hpath⟩

/-- A path that is handled is that of a leaf. -/
theorem exists_leaf_of_handles {r : DerivedRecord} {path : Path} (h : Handles types armsOf r path)
    {fields : List DeclaredField} (hr : (namedFields fields).derive = .ok r) {s : Shape}
    (hs : ShapeOf types (fields.filterMap DeclaredField.carried?) s) :
    ∃ leaf : s.Leaf, leaf.path = path := by
  induction h generalizing fields s with
  | @value r path a harm =>
    rw [harms fields r hr] at harm
    obtain ⟨f, hi, hembed, rfl⟩ := AccessorArm.of_select_arms harm
    obtain ⟨leaf, hleaf⟩ := exists_leaf_of_value hs hi hembed
    exact ⟨leaf, by rw [Shape.Leaf.path, hleaf, Nat.zero_add]⟩
  | @record r inner path rest a tag typeName fields' harm htag hembedded htype hderive _ ih =>
    rw [harms fields r hr] at harm
    obtain ⟨f, hi, hfit, rfl⟩ := AccessorArm.of_select_arms harm
    obtain ⟨hembed, hname⟩ := of_embedded_tag hr hi htag hembedded
    obtain ⟨fields'', inner', htype', hshape, houter⟩ := exists_leaf_of_record hs hi hembed
    obtain rfl : fields'' = fields' := Option.some.inj (htype'.symm.trans (hname ▸ htype))
    obtain ⟨leaf, rfl⟩ := ih hderive hshape
    obtain ⟨outer, hpath⟩ := houter leaf
    exact ⟨outer, by rw [Shape.Leaf.path, hpath, Nat.zero_add]⟩

end ShapeOf

/-! ## Access -/

/-- A field was reached, whether or not what it was asked for could be done. -/
def Reached {α : Type} (x : Except CoerceError α) : Prop := ∀ path, x ≠ .error (.unknownField path)

section

variable {α β : Type}

theorem reached_ok (a : α) : Reached (.ok a) := fun _ => nofun

theorem reached_ofKind (expected : String) (v : Value) :
    Reached (.error (.ofKind expected v) : Except CoerceError α) :=
  fun _ => nofun

theorem reached_map {x : Except CoerceError α} (h : Reached x) (f : α → β) : Reached (x.map f) := by
  cases x with
  | ok a => exact reached_ok (f a)
  | error e => exact fun path heq => h path (congrArg Except.error (Except.error.inj heq))

end

namespace FieldType

/-- A value that a field does not bind was reached. -/
theorem reached_encode (t : FieldType) (x : t.Carrier) : Reached (t.encode x) := by
  induction t with
  | int k =>
    show Reached (ofInteger x.val)
    unfold ofInteger
    split
    · exact reached_ok _
    · exact fun _ => nofun
  | option t ih =>
    cases x with
    | none => exact reached_ok _
    | some y => exact ih y
  | _ => exact reached_ok _

theorem reached_decodeInteger (k : IntKind) (v : Value) : Reached (decodeInteger k v) := by
  unfold decodeInteger
  split
  · exact reached_ok _
  · split
    · exact reached_ok _
    · exact fun _ => nofun
  · exact reached_ofKind _ _

theorem reached_decodeBool (v : Value) : Reached (decodeBool v) := by
  unfold decodeBool
  split
  · exact reached_ok _
  · exact reached_ok _
  · split
    · exact reached_ok _
    · split
      · exact reached_ok _
      · exact fun _ => nofun
  · exact reached_ofKind _ _

theorem reached_decodeText (v : Value) : Reached (decodeText v) := by
  unfold decodeText
  split
  · exact reached_ok _
  · exact reached_ok _
  · split
    · exact reached_ok _
    · exact fun _ => nofun
  · exact reached_ofKind _ _

theorem reached_decodeBytes (v : Value) : Reached (decodeBytes v) := by
  unfold decodeBytes
  split
  · exact reached_ok _
  · exact reached_ok _
  · exact reached_ok _
  · exact reached_ofKind _ _

theorem reached_decodeJson (t : JsonType) (bytes : ByteArray) : Reached (decodeJson t bytes) := by
  unfold decodeJson
  split
  · exact reached_ok _
  · exact fun _ => nofun

/-- A value that a field does not take was to be taken by it. -/
theorem reached_decode (t : FieldType) (v : Value) : Reached (t.decode v) := by
  induction t with
  | int k => exact reached_decodeInteger k v
  | bool => exact reached_decodeBool v
  | text => exact reached_decodeText v
  | bytes => exact reached_decodeBytes v
  | value => exact reached_ok v
  | enumeration name first others =>
    cases v with
    | null => exact reached_ok _
    | text s =>
      show Reached (if h : s ∈ first :: others then
        (.ok ⟨s, h⟩ : Except CoerceError (enumeration name first others).Carrier)
        else .error (.unknownVariant name s))
      split
      · exact reached_ok _
      · exact fun _ => nofun
    | _ => exact reached_ofKind _ _
  | json t =>
    cases v with
    | null => exact reached_ok _
    | text s => exact reached_decodeJson t _
    | blob b => exact reached_decodeJson t b
    | _ => exact reached_ofKind _ _
  | option t ih =>
    cases v with
    | null => exact reached_ok _
    | _ => exact reached_map ih some
  | float32 =>
    cases v with
    | null | real | integer => exact reached_ok _
    | _ => exact reached_ofKind _ _
  | float64 =>
    cases v with
    | null | real | integer => exact reached_ok _
    | _ => exact reached_ofKind _ _

end FieldType
namespace Shape

/-- Reading and writing at the path of a leaf reach a field. -/
theorem reached_getValue {s : Shape} {path : Path} (h : ∃ leaf : s.Leaf, leaf.path = path)
    (d : s.Data) : Reached (s.getValue d path) := by
  obtain ⟨leaf, rfl⟩ := h
  rw [getValue, leafAt_path]
  exact FieldType.reached_encode leaf.type (leaf.get d)

theorem reached_setValue {s : Shape} {path : Path} (h : ∃ leaf : s.Leaf, leaf.path = path)
    (d : s.Data) (v : Value) : Reached (s.setValue d path v) := by
  obtain ⟨leaf, rfl⟩ := h
  rw [setValue, leafAt_path]
  exact reached_map (FieldType.reached_decode leaf.type v) _

end Shape

/-! ## Main results -/

/-- The tags of a shape are those that the declaration stands for. -/
theorem ShapeOf.tagsOf {types : TypeNames} {fs : List TaggedField} {s : Shape}
    (h : ShapeOf types fs s) : TagsOf types (tags fs) s.tags := by
  induction h with
  | nil => exact .nil
  | @plain f fs t rest hembed _ _ ih =>
    have htag : tags (f :: fs) = ⟨f.name, f.tag, none⟩ :: tags fs := by
      rw [tags, List.map_cons, hembed]
      rfl
    rw [htag]
    exact .plain ih
  | @embed f fs fields r inner rest hembed htype hderive _ _ ihInner ih =>
    have htag : tags (f :: fs) = ⟨f.name, f.tag, some f.typeName⟩ :: tags fs := by
      rw [tags, List.map_cons, hembed]
      rfl
    rw [htag]
    refine .embedding htype hderive ?_ ih
    rw [derive_eq_ok hderive]
    exact ihInner

section

variable {fields : List DeclaredField} {r : DerivedRecord} {types : TypeNames} {s : Shape}

/-- **The paths that the arms of either accessor take are those of the leaves.** -/
theorem handles_iff (hr : (namedFields fields).derive = .ok r)
    (hs : ShapeOf types (fields.filterMap DeclaredField.carried?) s) (path : Path) :
    (Handles types (·.getArms) r path ↔ ∃ leaf : s.Leaf, leaf.path = path) ∧
    (Handles types (·.setArms) r path ↔ ∃ leaf : s.Leaf, leaf.path = path) := by
  have hget : ∀ fields r, (namedFields fields).derive = .ok r →
      r.getArms = arms (fields.filterMap DeclaredField.carried?) :=
    fun _ _ h => by rw [derive_eq_ok h]
  have hset : ∀ fields r, (namedFields fields).derive = .ok r →
      r.setArms = arms (fields.filterMap DeclaredField.carried?) :=
    fun _ _ h => by rw [derive_eq_ok h]
  refine ⟨⟨fun h => hs.exists_leaf_of_handles hget h hr, ?_⟩,
    ⟨fun h => hs.exists_leaf_of_handles hset h hr, ?_⟩⟩
  · rintro ⟨leaf, rfl⟩
    exact hs.handles_leaf hget hr leaf
  · rintro ⟨leaf, rfl⟩
    exact hs.handles_leaf hset hr leaf

end

/-- A path that the mapping of a record type goes by: that of a mapped field, or of the
remainder. -/
def Mapping.Follows (m : Mapping) (path : Path) : Prop :=
  (∃ i : m.Index, (m.field i).path = path) ∨ ∃ f ∈ m.remainder, f.path = path

/-- **Derived tags and accessors agree.**  They are those of the fields that carry tags, one by
one.  Where the tags are those of a record type, with those of the records in it, every path of its
mapping is taken by arms of either accessor and leads to a field. -/
theorem aligned_of_derive {fields : List DeclaredField} {r : DerivedRecord}
    (h : (namedFields fields).derive = .ok r) :
    r.Aligned (fields.filterMap DeclaredField.carried?) ∧
    ∀ (types : TypeNames) (s : Shape),
      ShapeOf types (fields.filterMap DeclaredField.carried?) s →
      TagsOf types r.tags s.tags ∧
      ∀ (typeName : String) (m : Mapping) (path : Path),
        (s.recordType typeName).mapping = .ok m → m.Follows path →
        Handles types (·.getArms) r path ∧ Handles types (·.setArms) r path ∧
        (∀ d, Reached ((s.recordType typeName).get d path)) ∧
        ∀ d v, Reached ((s.recordType typeName).set d path v) := by
  refine ⟨?_, fun types s hs => ⟨?_, fun typeName m path hm hpath => ?_⟩⟩
  · rw [derive_eq_ok h]
    exact aligned_carried _
  · rw [derive_eq_ok h]
    exact hs.tagsOf
  · have haddress : FieldTag.Addresses s.tags path := by
      obtain ⟨i, rfl⟩ | ⟨f, hf, rfl⟩ := hpath
      · exact addresses_path hm i
      · exact addresses_remainder hm hf
    have hleaf := Shape.exists_leaf haddress
    exact ⟨(handles_iff h hs path).1.2 hleaf, (handles_iff h hs path).2.2 hleaf,
      Shape.reached_getValue hleaf, Shape.reached_setValue hleaf⟩

/-! ## A person -/

/-- A person: the note carries no tag, and blanks around what a tag says do not count. -/
def personFields : List DeclaredField :=
  [⟨"id", "i64", [none, some (.tag "id, pk")]⟩,
   ⟨"note", "Note", [none]⟩,
   ⟨"home", "Address", [some (.tag " home , embed ")]⟩,
   ⟨"extra", "String", [some (.tag "extra,remainder")]⟩]

/-- An address. -/
def addressFields : List DeclaredField := [⟨"city", "String", [some (.tag "city")]⟩]

/-- The types that are named in a person. -/
def personTypes : TypeNames where
  value? name :=
    if name = "i64" then some (.int .int64)
    else if name = "String" then some .text
    else none
  record? name := if name = "Address" then some addressFields else none

/-- What the declaration of a person stands for. -/
def personRecord : DerivedRecord where
  tags := [⟨"id", "id, pk", none⟩, ⟨"home", " home , embed ", some "Address"⟩,
    ⟨"extra", "extra,remainder", none⟩]
  getArms := [⟨0, "id", false⟩, ⟨1, "home", true⟩, ⟨2, "extra", false⟩]
  setArms := [⟨0, "id", false⟩, ⟨1, "home", true⟩, ⟨2, "extra", false⟩]

/-- The shape of a person. -/
def personShape : Shape :=
  .plain "id" "id, pk" (.int .int64)
    (.embed "home" " home , embed " (.plain "city" "city" .text .nil)
      (.plain "extra" "extra,remainder" .text .nil))

/-- The columns of a person. -/
def personMapping : Mapping :=
  ⟨"Person", [⟨"id", "id", [0], true, false⟩, ⟨"city", "home.city", [1, 0], false, false⟩], [0],
    ⟨[("id", 0), ("city", 1)], [("id", 0), ("city", 1)]⟩, some ⟨"extra", [2]⟩⟩

theorem shapeOf_person :
    ShapeOf personTypes (personFields.filterMap DeclaredField.carried?) personShape := by
  have haddress : ShapeOf personTypes (addressFields.filterMap DeclaredField.carried?)
      (.plain "city" "city" .text .nil) := by
    rw [show addressFields.filterMap DeclaredField.carried? = [⟨"city", "String", "city"⟩] by
      decide]
    exact .plain (by decide +kernel) rfl .nil
  rw [show personFields.filterMap DeclaredField.carried? =
    [⟨"id", "i64", "id, pk"⟩, ⟨"home", "Address", " home , embed "⟩,
      ⟨"extra", "String", "extra,remainder"⟩] by decide]
  refine .plain (by decide +kernel) rfl ?_
  refine .embed (by decide +kernel) rfl rfl haddress ?_
  exact .plain (by decide +kernel) rfl .nil

theorem aligned_of_derive_person :
    ((namedFields personFields).derive = .ok personRecord ∧
      (personShape.recordType "Person").mapping = .ok personMapping ∧
      personMapping.Follows [1, 0] ∧ personMapping.Follows [2]) ∧
    personRecord.Aligned (personFields.filterMap DeclaredField.carried?) ∧
    TagsOf personTypes personRecord.tags personShape.tags ∧
    Handles personTypes (·.setArms) personRecord [1, 0] ∧
    Handles personTypes (·.getArms) personRecord [2] ∧
    Reached ((personShape.recordType "Person").get personShape.zero [1, 0]) := by
  have hderive : (namedFields personFields).derive = .ok personRecord := by decide +kernel
  have hmapping : (personShape.recordType "Person").mapping = .ok personMapping := by rfl
  have hcity : personMapping.Follows [1, 0] := .inl ⟨⟨1, by decide⟩, rfl⟩
  have hextra : personMapping.Follows [2] := .inr ⟨⟨"extra", [2]⟩, rfl, rfl⟩
  obtain ⟨haligned, hshape⟩ := aligned_of_derive hderive
  obtain ⟨htags, hpaths⟩ := hshape personTypes personShape shapeOf_person
  obtain ⟨-, hset, hreached, -⟩ := hpaths "Person" personMapping [1, 0] hmapping hcity
  have hget := (hpaths "Person" personMapping [2] hmapping hextra).1
  exact ⟨⟨hderive, hmapping, hcity, hextra⟩, haligned, htags, hset, hget, hreached _⟩

end TableRecords
