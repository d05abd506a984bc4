import TableRecords.Record.Shape

/-!
# Record types

What the rest of the library knows of a record: the name of its type, its tags, and access to
its fields by path. Every shape gives a record type.
-/

namespace TableRecords

/-- A type whose values are stored as rows. -/
structure RecordType (ρ : Type) where
  typeName : String
  tags : List FieldTag
  /-- A record none of whose fields was set. -/
  zero : ρ
  get : ρ → Path → Except CoerceError Value
  set : ρ → Path → Value → Except CoerceError ρ

/-- The record type of a shape. -/
def Shape.recordType (s : Shape) (typeName : String) : RecordType s.Data :=
  ⟨typeName, s.tags, s.zero, s.getValue, s.setValue⟩

namespace RecordType

/-- A path that leads nowhere, reported from the outermost record. -/
def atWholePath (path : Path) : CoerceError → CoerceError
  | .unknownField _ => .unknownField path
  | e => e

/-- The same records, with a path that leads nowhere reported as it was given. -/
def reportingWholePaths {ρ : Type} (r : RecordType ρ) : RecordType ρ :=
  { r with
    get := fun d path => (r.get d path).mapError (atWholePath path)
    set := fun d path v => (r.set d path v).mapError (atWholePath path) }

end RecordType
end TableRecords
