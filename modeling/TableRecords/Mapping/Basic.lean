import TableRecords.Mapping.Tag
import TableRecords.Record.Type
import TableRecords.Text.Ascii

/-!
# Mappings

A `Mapping` says which column each field of a record type is stored in. `ofTags` builds it from
the declared tags: the columns of an embedded record stand in place of the field that holds it,
a remainder field has no column, and no column is mapped twice. The list of its key fields and the
tables of its columns grow with it, one field at a time (`addField`). `indexOf?` finds the mapping
of a result column in these tables, by its exact spelling or else up to ASCII letter case.
-/

namespace TableRecords

/-- A field and the column it is stored in. -/
structure MappedField where
  column : String
  /-- The name of the field, behind the name of the field its record is embedded in. -/
  field : String
  path : Path
  primaryKey : Bool
  generated : Bool
  deriving DecidableEq, Repr

/-- The field that takes the columns no field is mapped to. -/
structure RemainderField where
  field : String
  path : Path
  deriving DecidableEq, Repr

/-! ## Tables of columns -/

/-- The places of columns, found by their names and by their names in small letters. A table is a
list of keys, none of them twice, each with its place. -/
structure ColumnTables where
  exact : List (String × Nat)
  folded : List (String × Nat)
  deriving DecidableEq, Repr

namespace ColumnTables

/-- The tables of no column. -/
def empty : ColumnTables := ⟨[], []⟩

/-- Adds a column with its place. One that is there already is refused; of columns that differ in
letter case only the first one keeps its place. -/
def add (t : ColumnTables) (column : String × Nat) : Option ColumnTables :=
  if (t.exact.lookup column.1).isSome then none
  else
    let key := Text.asciiLower column.1
    some ⟨t.exact ++ [column],
      if (t.folded.lookup key).isSome then t.folded else t.folded ++ [(key, column.2)]⟩

/-- The place of the column that a name leads to. -/
def place? (t : ColumnTables) (name : String) : Option Nat :=
  (t.exact.lookup name).or (t.folded.lookup (Text.asciiLower name))

end ColumnTables

/-! ## Mappings -/

/-- The columns of a record type. -/
structure Mapping where
  typeName : String
  fields : List MappedField
  /-- The places of the fields that are tagged as the primary key. -/
  keys : List Nat
  /-- The places of the columns. -/
  tables : ColumnTables
  remainder : Option RemainderField
  deriving DecidableEq, Repr

namespace Mapping

/-- The mapping of a type without fields. -/
def empty (typeName : String) : Mapping := ⟨typeName, [], [], .empty, none⟩

/-- The place of a field in a mapping. -/
abbrev Index (m : Mapping) : Type := Fin m.fields.length

instance (m : Mapping) : LawfulBEq m.Index := instLawfulBEq

/-- The place of this number, if there is one. -/
def index? (m : Mapping) (n : Nat) : Option m.Index :=
  if h : n < m.fields.length then some ⟨n, h⟩ else none

/-- The field at a place. -/
def field (m : Mapping) (i : m.Index) : MappedField := m.fields.get i

/-- All places in order of declaration. -/
def indexes (m : Mapping) : List m.Index := List.finRange m.fields.length

/-- The columns in order of declaration. -/
def columns (m : Mapping) : List String := m.fields.map (·.column)

/-- The columns of some places. -/
def columnsAt (m : Mapping) (is : List m.Index) : List String := is.map fun i => (m.field i).column

/-- The fields that are tagged as the primary key. -/
def primaryKey (m : Mapping) : List m.Index := m.keys.filterMap m.index?

/-- The mapping of a column of this spelling, or else the first that differs in ASCII letter
case only. -/
def indexOf? (m : Mapping) (column : String) : Option m.Index :=
  (m.tables.place? column).bind m.index?

/-! ## Building a mapping -/

/-- The tag of a field, with a fault told under the name of the field. -/
def readTag (field text : String) : Except String Tag :=
  (Tag.parse text).mapError fun e => s!"field {field}: {e.message}"

/-- Adds a field behind the others. -/
def addField (m : Mapping) (f : MappedField) : Except String Mapping :=
  let place := m.fields.length
  match m.tables.add (f.column, place) with
  | none => .error s!"column {Text.quoted f.column} is mapped more than once"
  | some tables => .ok { m with
      fields := m.fields ++ [f]
      keys := if f.primaryKey then m.keys ++ [place] else m.keys
      tables }

/-- Adds field number `j` of the record embedded in field number `i`. -/
def addInner (outer : String) (i : Nat) (m : Mapping) (tag : FieldTag × Nat) :
    Except String Mapping := do
  let (inner, j) := tag
  let name := s!"{outer}.{inner.field}"
  let parsed ← readTag name inner.tag
  if parsed.embed ∨ inner.embedded.isSome then
    .error s!"field {name}: embedding is limited to one level"
  else if parsed.remainder then
    .error s!"field {name}: a remainder field must be declared on the outer record"
  else m.addField ⟨parsed.column, name, [i, j], parsed.primaryKey, parsed.generated⟩

/-- Adds field number `i` of the record. -/
def addTag (m : Mapping) (tag : FieldTag × Nat) : Except String Mapping := do
  let (outer, i) := tag
  let parsed ← readTag outer.field outer.tag
  match parsed.embed, outer.embedded with
  | true, none => .error s!"field {outer.field} is tagged embed but is not a record"
  | true, some inner => inner.zipIdx.foldlM (addInner outer.field i) m
  | false, some _ =>
    .error s!"field {outer.field} carries embedded tags but is not tagged embed"
  | false, none =>
    if parsed.remainder then
      if m.remainder.isSome then .error "more than one remainder field"
      else .ok { m with remainder := some ⟨outer.field, [i]⟩ }
    else m.addField ⟨parsed.column, outer.field, [i], parsed.primaryKey, parsed.generated⟩

/-- The mapping that tags declare, or the reason why they declare none. -/
def build (typeName : String) (tags : List FieldTag) : Except String Mapping := do
  let m ← tags.zipIdx.foldlM addTag (.empty typeName)
  if m.fields.isEmpty then .error "no mapped fields" else .ok m

/-- The mapping that the tags of a record type declare. -/
def ofTags (typeName : String) (tags : List FieldTag) : Except Error Mapping :=
  (build typeName tags).mapError (.invalidMapping typeName)

/-- The value of a mapped field of a record. -/
def valueOf {ρ : Type} (m : Mapping) (type : RecordType ρ) (d : ρ) (i : m.Index) :
    Except Error Value :=
  (type.get d (m.field i).path).mapError fun e =>
    .invalidArgument s!"field {(m.field i).field}: {e.message}"

end Mapping

/-- The mapping of a record type. -/
def RecordType.mapping {ρ : Type} (type : RecordType ρ) : Except Error Mapping :=
  Mapping.ofTags type.typeName type.tags

end TableRecords
