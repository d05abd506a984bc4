/-!
# Field tags

The tags a record type declares, one for each mapped field in order of declaration. The tag of
an embedded record comes with the tags of that record.
-/

namespace TableRecords

/-- A field, its tag, and the tags of the record that is embedded in it. -/
structure FieldTag where
  field : String
  tag : String
  embedded : Option (List FieldTag)
  deriving Inhabited

namespace FieldTag

/-- A field with a value of its own. -/
def plain (field tag : String) : FieldTag := ⟨field, tag, none⟩

/-- A field that holds a record. -/
def embedding (field tag : String) (inner : List FieldTag) : FieldTag := ⟨field, tag, some inner⟩

end FieldTag
end TableRecords
