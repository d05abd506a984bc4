import TableRecords.Json.Standard
import TableRecords.Proofs.Scan.Row

/-!
# What is bound is read back

A field decodes the value that it encodes, to a content that encodes to the same value
(`Codec.Faithful.decode_encode`).  So the row that a record is bound to can be copied to any other
record, which is then bound to the same values:

    m.indexes.map (m.valueOf type r) = values.map .ok →
      (row m type m.columns values).exec d = (.ok (), d') → m.valueOf type d' = m.valueOf type r
                                                                              (row_of_bound)

The content need not be the same: an optional field of a free value that holds NULL is read back as
one that holds nothing.
-/

namespace TableRecords

/-! ## Fields of the library -/

namespace FieldType

/-- What the library relies on of others for what a field holds: a JSON text that is printed is read
back, and narrowing undoes widening. -/
def ReadsBack : (t : FieldType) → t.Carrier → Prop
  | float32, x => Binary.narrow (Binary.widen x) = x
  | json t, j => t.parse? j.val.render.toUTF8 = some j
  | option t, x => match x with
    | none => True
    | some y => t.ReadsBack y
  | _, _ => True

theorem decodeInteger_ofInteger {k : IntKind} (n : k.Carrier) {v : Value}
    (h : ofInteger n.val = .ok v) : decodeInteger k v = .ok n := by
  rw [ofInteger] at h
  split at h
  · next hn =>
    obtain rfl := Except.ok.inj h
    have hback : (Int64.ofInt n.val).toInt = n.val :=
      Int64.toInt_ofInt_of_le hn.1 (Int.lt_of_le_of_lt hn.2 (by decide))
    simp only [decodeInteger, hback]
    exact dif_pos n.property
  · exact absurd h (by simp)

theorem decodeBool_ofBool (b : Bool) : decodeBool (ofBool b) = .ok b := by
  cases b <;> rfl

/-- **A field of the library reads back what it binds.** -/
theorem decode_encode {t : FieldType} {x : t.Carrier} {v : Value} (hx : t.ReadsBack x)
    (h : t.encode x = .ok v) : ∃ y, t.decode v = .ok y ∧ t.encode y = .ok v := by
  induction t with
  | int k => exact ⟨x, decodeInteger_ofInteger x h, h⟩
  | float32 =>
    obtain rfl : ofFloat32 x = v := Except.ok.inj h
    have hx : Binary.narrow (Binary.widen x) = x := hx
    exact ⟨x, congrArg Except.ok hx, rfl⟩
  | float64 =>
    obtain rfl : Value.real x = v := Except.ok.inj h
    exact ⟨x, rfl, rfl⟩
  | bool =>
    obtain rfl : ofBool x = v := Except.ok.inj h
    exact ⟨x, decodeBool_ofBool x, rfl⟩
  | text =>
    obtain rfl : Value.text x = v := Except.ok.inj h
    exact ⟨x, rfl, rfl⟩
  | bytes =>
    obtain rfl : Value.blob x = v := Except.ok.inj h
    exact ⟨x, rfl, rfl⟩
  | value =>
    obtain rfl : x = v := Except.ok.inj h
    exact ⟨x, rfl, rfl⟩
  | enumeration name first others =>
    obtain rfl : Value.text x.val = v := Except.ok.inj h
    exact ⟨x, dif_pos x.property, rfl⟩
  | json t =>
    obtain rfl : Value.text x.val.render = v := Except.ok.inj h
    have hx : t.parse? x.val.render.toUTF8 = some x := hx
    refine ⟨x, ?_, rfl⟩
    show decodeJson t x.val.render.toUTF8 = _
    rw [decodeJson, hx]
    rfl
  | option t ih =>
    cases x with
    | none =>
      obtain rfl : Value.null = v := Except.ok.inj h
      exact ⟨none, rfl, rfl⟩
    | some x =>
      obtain ⟨y, hy, hencode⟩ := ih hx h
      cases v with
      -- What is bound to NULL is read back as nothing, which is bound to NULL too.
      | null => exact ⟨none, rfl, rfl⟩
      | _ => exact ⟨some y, congrArg (Except.map some) hy, hencode⟩

end FieldType

/-! ## All fields -/

namespace Codec

/-- The codec of a field that may hold nothing. -/
def option (c : Codec) : Codec where
  Content := Option c.Content
  encode
    | none => .ok .null
    | some x => c.encode x
  decode
    | .null => .ok none
    | v => (c.decode v).map some

/-- The content of a field is read back as it is bound: the field is one of the library, or one of a
user's own that decodes what it encodes, or may hold nothing and else is such a field. -/
inductive Faithful : (c : Codec) → c.Content → Prop where
  | library (t : FieldType) (x : t.Carrier) (h : t.ReadsBack x) : Faithful t.codec x
  | custom (c : Codec) (x : c.Content) (h : ∀ v, c.encode x = .ok v → c.decode v = .ok x) :
    Faithful c x
  | nothing (c : Codec) : Faithful c.option none
  | something (c : Codec) (x : c.Content) (h : Faithful c x) : Faithful c.option (some x)

theorem Faithful.decode_encode {c : Codec} {x : c.Content} (hx : c.Faithful x) {v : Value}
    (h : c.encode x = .ok v) : ∃ y, c.decode v = .ok y ∧ c.encode y = .ok v := by
  induction hx with
  | library t x hx => exact FieldType.decode_encode hx h
  | custom c x hx => exact ⟨x, hx v h, h⟩
  | nothing c =>
    obtain rfl : Value.null = v := Except.ok.inj h
    exact ⟨none, rfl, rfl⟩
  | something c x hx ih =>
    obtain ⟨y, hy, hencode⟩ := ih h
    cases v with
    | null => exact ⟨none, rfl, rfl⟩
    | _ => exact ⟨some y, congrArg (Except.map some) hy, hencode⟩

end Codec

/-! ## Rows -/

variable {ρ : Type} {type : RecordType ρ} {m : Mapping} {F : type.Fields}

/-- The values that a record is bound to stand at the places of their fields. -/
theorem valueOf_of_mem_zip {r : ρ} {is : List m.Index} {values : List Value}
    (hvalues : is.map (m.valueOf type r) = values.map .ok) {i : m.Index} {v : Value}
    (h : (i, v) ∈ is.zip values) : m.valueOf type r i = .ok v := by
  induction is generalizing values with
  | nil => exact absurd h List.not_mem_nil
  | cons j is ih =>
    cases values with
    | nil => exact absurd h List.not_mem_nil
    | cons w values =>
      rw [List.map_cons, List.map_cons, List.cons.injEq] at hvalues
      rcases List.mem_cons.1 h with heq | hmem
      · obtain ⟨rfl, rfl⟩ := Prod.mk.inj heq
        exact hvalues.1
      · exact ih hvalues.2 hmem

namespace Scan

/-- The values of a record's own columns can be decoded, each to a content that is bound to it. -/
theorem decode_of_bound {r : ρ} {i : m.Index} {v : Value} (hv : m.valueOf type r i = .ok v)
    {p : F.Place} (hp : F.path p = (m.field i).path)
    (hfaithful : (F.codec p).Faithful (F.read p r)) :
    ∃ y, (F.codec p).decode v = .ok y ∧ (F.codec p).encode y = .ok v := by
  rw [Mapping.valueOf, mapError_eq_ok_iff, ← hp, F.get_path] at hv
  exact hfaithful.decode_encode hv

/-- **What is bound for a record is read back.**  The row of its values can be copied to any record,
which is then bound to the same values, and keeps what its remainder field held. -/
theorem row_of_bound [JsonLibrary] (F : type.Fields) (hm : type.mapping = .ok m) {r : ρ} {values : List Value}
    (hvalues : m.indexes.map (m.valueOf type r) = values.map .ok)
    (hfaithful : ∀ i p, F.path p = (m.field i).path → (F.codec p).Faithful (F.read p r)) (d : ρ) :
    ∃ d', (row m type m.columns values).exec d = (.ok (), d') ∧
      (∀ i, m.valueOf type d' i = m.valueOf type r i) ∧
      ∀ f ∈ m.remainder, F.Keeps f.path d d' := by
  have hlength : values.length = m.indexes.length := by
    simpa using (congrArg List.length hvalues).symm
  have hdecode : ∀ i v, (i, v) ∈ m.indexes.zip values →
      ∃ p x, F.path p = (m.field i).path ∧ (F.codec p).decode v = .ok x := by
    intro i v hiv
    obtain ⟨p, hp⟩ := F.exists_place _ (addresses_path hm i)
    obtain ⟨y, hy, -⟩ := decode_of_bound (valueOf_of_mem_zip hvalues hiv) hp (hfaithful i p hp)
    exact ⟨p, y, hp, hy⟩
  obtain ⟨d', hrow⟩ := exec_row_of_decodes (F := F) hm hlength hdecode d
  obtain ⟨js, -, hall, hfills⟩ := fills_of_row (F := F) hm hrow
  obtain rfl := (hall rfl).1
  rw [← m.columnsAt_indexes]
  refine ⟨d', hrow, fun i => ?_, fun f hf => hfills.keeps_remainder hm hf⟩
  obtain ⟨v, hiv, p, hp, hread⟩ := hfills.decodes i (List.mem_finRange i)
  have hv := valueOf_of_mem_zip hvalues hiv
  obtain ⟨y, hy, hencode⟩ := decode_of_bound hv hp (hfaithful i p hp)
  obtain rfl : F.read p d' = y := Except.ok.inj (hread.symm.trans hy)
  rw [hv, Mapping.valueOf, mapError_eq_ok_iff, ← hp, F.get_path, hencode]

/-! ## A sensor -/

/-- Sensors: a number of binary32, a JSON value in a column that differs from the former in letter
case only, an optional value in an embedded record, and a remainder field. -/
def sensorShape : Shape :=
  .plain "id" "id,pk" (.int .int64)
    (.plain "level" "level" .float32
      (.plain "marks" "LEVEL" (.option (.json .any))
        (.embed "place" "place,embed" (.plain "room" "room" (.option .value) .nil)
          (.plain "rest" "rest,remainder" (.json (.dict .any)) .nil))))

/-- The columns of sensors. -/
def sensorMapping : Mapping :=
  ⟨"Sensor", [⟨"id", "id", [0], true, false⟩, ⟨"level", "level", [1], false, false⟩,
    ⟨"LEVEL", "marks", [2], false, false⟩, ⟨"room", "place.room", [3, 0], false, false⟩], [0],
    ⟨[("id", 0), ("level", 1), ("LEVEL", 2), ("room", 3)], [("id", 0), ("level", 1), ("room", 3)]⟩,
    some ⟨"rest", [4]⟩⟩

theorem mapping_sensorShape : (sensorShape.recordType "Sensor").mapping = .ok sensorMapping := by
  rfl

/-- A sensor whose room is there, and is NULL. -/
def sensor : sensorShape.Data :=
  (⟨7, IntKind.int64_holds 7⟩, (1.5 : Float32), some ⟨.array [.bool true, .null], rfl⟩,
    (some Value.null, ()), ⟨.object [], rfl⟩, ())

/-- What the sensor is bound to. -/
def sensorValues : List Value :=
  [.integer 7, .real (Binary.widen 1.5), .text "[true,null]", .null]

theorem faithful_sensor : ∀ leaf : Shape.Leaf sensorShape,
    leaf.type.codec.Faithful (leaf.get sensor)
  | .here => .library _ _ trivial
  | .behindPlain .here => .library _ _ rfl
  | .behindPlain (.behindPlain .here) => .library _ _ rfl
  | .behindPlain (.behindPlain (.behindPlain (.inside .here))) => .library _ _ trivial
  | .behindPlain (.behindPlain (.behindPlain (.behindEmbed .here))) => .library _ _ rfl

theorem row_of_bound_sensor :
    (sensorMapping.indexes.map (sensorMapping.valueOf (sensorShape.recordType "Sensor") sensor) =
        sensorValues.map .ok ∧
      ∀ leaf : Shape.Leaf sensorShape, leaf.type.codec.Faithful (leaf.get sensor)) ∧
    ∃ d', (row sensorMapping (sensorShape.recordType "Sensor") ["id", "level", "LEVEL", "room"]
        sensorValues).exec sensorShape.zero = (.ok (), d') ∧
      (∀ i, sensorMapping.valueOf (sensorShape.recordType "Sensor") d' i =
        sensorMapping.valueOf (sensorShape.recordType "Sensor") sensor i) ∧
      ∀ f ∈ sensorMapping.remainder,
        (sensorShape.fields "Sensor").Keeps f.path sensorShape.zero d' := by
  have hvalues : sensorMapping.indexes.map
      (sensorMapping.valueOf (sensorShape.recordType "Sensor") sensor) =
        sensorValues.map .ok := by
    rfl
  exact ⟨⟨hvalues, faithful_sensor⟩, row_of_bound (sensorShape.fields "Sensor") mapping_sensorShape
    hvalues (fun _ leaf _ => faithful_sensor leaf) sensorShape.zero⟩

end Scan
end TableRecords
