import TableRecords.Text.Split

/-!
# Declarations of record types

A record type can be declared by a structure whose fields carry tags as attributes. `derive`
gives what the declaration stands for: the tags of the tagged fields in order, and for each of
them an arm of the two accessors, or the reason why the declaration is refused. Fields without
a tag are left out and shift no index.
-/

namespace TableRecords

/-- What stands between the parentheses of a tag attribute. -/
inductive TagAttribute where
  | tag (text : String)
  /-- No parentheses. -/
  | bare
  | empty
  /-- One thing that is not a string. -/
  | notText
  /-- An equals sign in place of the parentheses. -/
  | assigned
  /-- More than a string. -/
  | several
  deriving DecidableEq, Repr

/-- A field, the name of its type, and its attributes; `none` is an attribute of another name. -/
structure DeclaredField where
  name : String
  typeName : String
  attributes : List (Option TagAttribute)
  deriving DecidableEq, Repr

/-- A declaration. -/
inductive Declaration where
  | namedFields (fields : List DeclaredField)
  /-- A structure without named fields, an enumeration or a union. -/
  | otherType
  /-- Something that declares no type. -/
  | notType
  deriving DecidableEq, Repr

/-- Why a declaration is refused. -/
inductive DeclarationError where
  | notType
  | noNamedFields
  | duplicateTag
  | bareTag
  | emptyTag
  | notText
  | assignedTag
  | severalTags
  deriving DecidableEq, Repr

namespace DeclarationError

/-- The wording. -/
def message : DeclarationError → String
  | notType => "expected one of: \x60struct\x60, \x60enum\x60, \x60union\x60"
  | noNamedFields => "Record can only be derived for structs with named fields"
  | duplicateTag => "duplicate #[rowmap] attribute"
  | bareTag => "expected attribute arguments in parentheses: #[rowmap(...)]"
  | emptyTag => "unexpected end of input, expected string literal"
  | notText => "expected string literal"
  | assignedTag => "expected parentheses: #[rowmap(...)]"
  | severalTags => "unexpected token"

end DeclarationError

/-- The tag of an attribute. -/
def TagAttribute.text : TagAttribute → Except DeclarationError String
  | tag text => .ok text
  | bare => .error .bareTag
  | empty => .error .emptyTag
  | notText => .error .notText
  | assigned => .error .assignedTag
  | several => .error .severalTags

/-- The tag among the attributes behind one that was already `found`. A second tag is refused
before it is read. -/
def DeclaredField.tagAmong (found : Option String) :
    List (Option TagAttribute) → Except DeclarationError (Option String)
  | [] => .ok found
  | none :: rest => tagAmong found rest
  | some a :: rest =>
    if found.isSome then .error .duplicateTag else do tagAmong (some (← a.text)) rest

/-- A field with its tag. -/
structure TaggedField where
  name : String
  typeName : String
  tag : String
  deriving DecidableEq, Repr

/-- Whether a tag says that its field holds a record. -/
def TaggedField.isEmbed (f : TaggedField) : Bool := "embed" ∈ (Text.trimmedParts f.tag).2

/-- The fields with a tag. -/
def DeclaredField.tagged : List DeclaredField → Except DeclarationError (List TaggedField)
  | [] => .ok []
  | f :: rest => do
    match ← tagAmong none f.attributes with
    | none => tagged rest
    | some tag => return ⟨f.name, f.typeName, tag⟩ :: (← tagged rest)

/-- A declared tag, with the type whose tags it embeds. -/
structure DeclaredTag where
  field : String
  tag : String
  embedded : Option String
  deriving DecidableEq, Repr

/-- An arm of an accessor: it takes the paths that begin with `index`, of this length only or,
if `isEmbed`, of any greater length. -/
structure AccessorArm where
  index : Nat
  field : String
  isEmbed : Bool
  deriving DecidableEq, Repr

/-- What a declaration stands for. -/
structure DerivedRecord where
  tags : List DeclaredTag
  getArms : List AccessorArm
  setArms : List AccessorArm
  deriving DecidableEq, Repr

namespace Declaration

/-- The tags of tagged fields. -/
def tags (fields : List TaggedField) : List DeclaredTag :=
  fields.map fun f => ⟨f.name, f.tag, if f.isEmbed then some f.typeName else none⟩

/-- The accessor arms of tagged fields. -/
def arms (fields : List TaggedField) : List AccessorArm :=
  fields.zipIdx.map fun (f, i) => ⟨i, f.name, f.isEmbed⟩

/-- What a declaration stands for, or why it is refused. -/
def derive : Declaration → Except DeclarationError DerivedRecord
  | notType => .error .notType
  | otherType => .error .noNamedFields
  | namedFields fields => do
    let tagged ← DeclaredField.tagged fields
    return ⟨tags tagged, arms tagged, arms tagged⟩

end Declaration
end TableRecords
