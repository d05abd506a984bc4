import TableRecords.Field.Type
import TableRecords.Record.Tags

/-!
# Record shapes

A shape lists the mapped fields of a record in order of declaration; a field holds a value or a
record of another shape. `Data` is a record of the shape and `Leaf` a place in it that holds a
value. `leafAt` follows a path to a leaf, and `Leaf.get` and `Leaf.set` form a lens on the
record: what was set is read back, and every other leaf keeps its value.
-/

namespace TableRecords

/-- The mapped fields of a record. -/
inductive Shape where
  | nil
  | plain (field tag : String) (type : FieldType) (rest : Shape)
  | embed (field tag : String) (inner rest : Shape)
  deriving Inhabited

namespace Shape

/-- A record of a shape. -/
def Data : Shape → Type
  | nil => Unit
  | plain _ _ t rest => t.Carrier × rest.Data
  | embed _ _ inner rest => inner.Data × rest.Data

/-- A record none of whose fields was set. -/
def zero : (s : Shape) → s.Data
  | nil => ()
  | plain _ _ t rest => (t.zero, rest.zero)
  | embed _ _ inner rest => (inner.zero, rest.zero)

/-- The declared tags. -/
def tags : Shape → List FieldTag
  | nil => []
  | plain field tag _ rest => .plain field tag :: rest.tags
  | embed field tag inner rest => .embedding field tag inner.tags :: rest.tags

/-- A place in a record that holds a value. -/
inductive Leaf : Shape → Type where
  /-- The first field. -/
  | here {field tag : String} {t : FieldType} {rest : Shape} : Leaf (.plain field tag t rest)
  /-- A leaf of the record in the first field. -/
  | inside {field tag : String} {inner rest : Shape} (leaf : Leaf inner) :
      Leaf (.embed field tag inner rest)
  /-- A leaf behind a first field that holds a value. -/
  | behindPlain {field tag : String} {t : FieldType} {rest : Shape} (leaf : Leaf rest) :
      Leaf (.plain field tag t rest)
  /-- A leaf behind a first field that holds a record. -/
  | behindEmbed {field tag : String} {inner rest : Shape} (leaf : Leaf rest) :
      Leaf (.embed field tag inner rest)

namespace Leaf

/-- The type of the field. -/
def type {s : Shape} : Leaf s → FieldType
  | here (t := t) => t
  | inside leaf => leaf.type
  | behindPlain leaf => leaf.type
  | behindEmbed leaf => leaf.type

/-- The content of the field. -/
def get {s : Shape} : (leaf : Leaf s) → s.Data → leaf.type.Carrier
  | here, d => d.1
  | inside leaf, d => leaf.get d.1
  | behindPlain leaf, d => leaf.get d.2
  | behindEmbed leaf, d => leaf.get d.2

/-- The record with the content of the field replaced. -/
def set {s : Shape} : (leaf : Leaf s) → leaf.type.Carrier → s.Data → s.Data
  | here, x, d => (x, d.2)
  | inside leaf, x, d => (leaf.set x d.1, d.2)
  | behindPlain leaf, x, d => (d.1, leaf.set x d.2)
  | behindEmbed leaf, x, d => (d.1, leaf.set x d.2)

/-- The path of a leaf whose shape begins at field `first` of its record. -/
def pathFrom {s : Shape} : Leaf s → (first : Nat) → Path
  | here, first => [first]
  | inside leaf, first => first :: leaf.pathFrom 0
  | behindPlain leaf, first => leaf.pathFrom (first + 1)
  | behindEmbed leaf, first => leaf.pathFrom (first + 1)

/-- The path of a leaf: the index of its field, behind those of the records around it. -/
def path {s : Shape} (leaf : Leaf s) : Path := leaf.pathFrom 0

end Leaf

/-- The leaves in order of declaration. -/
def leaves : (s : Shape) → List (Leaf s)
  | nil => []
  | plain _ _ _ rest => .here :: rest.leaves.map .behindPlain
  | embed _ _ inner rest => inner.leaves.map .inside ++ rest.leaves.map .behindEmbed

/-- The leaf that a path reaches behind field number `i`, or `missing` if there is none. A path
that ends inside an embedded record is reported as that record sees it. -/
def leafFrom : (s : Shape) → (i : Nat) → (rest missing : Path) → Except Path (Leaf s)
  | nil, _, _, missing => .error missing
  | plain .., 0, [], _ => .ok .here
  | plain .., 0, _ :: _, missing => .error missing
  | embed .., 0, [], missing => .error missing
  | embed _ _ inner _, 0, j :: path, _ => (inner.leafFrom j path (j :: path)).map .inside
  | plain _ _ _ rest, i + 1, path, missing => (rest.leafFrom i path missing).map .behindPlain
  | embed _ _ _ rest, i + 1, path, missing => (rest.leafFrom i path missing).map .behindEmbed

/-- The leaf at a path. -/
def leafAt (s : Shape) : Path → Except Path (Leaf s)
  | [] => .error []
  | i :: rest => s.leafFrom i rest (i :: rest)

/-- The value of the field at a path. -/
def getValue (s : Shape) (d : s.Data) (path : Path) : Except CoerceError Value :=
  match s.leafAt path with
  | .ok leaf => leaf.type.encode (leaf.get d)
  | .error missing => .error (.unknownField missing)

/-- The record with the field at a path set from a value. -/
def setValue (s : Shape) (d : s.Data) (path : Path) (v : Value) : Except CoerceError s.Data :=
  match s.leafAt path with
  | .ok leaf => (leaf.type.decode v).map fun x => leaf.set x d
  | .error missing => .error (.unknownField missing)

end Shape
end TableRecords
