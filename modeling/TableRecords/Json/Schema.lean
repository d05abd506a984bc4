import TableRecords.IntKind
import TableRecords.Json.Source

/-!
# Typed JSON

A `JsonType` says which JSON values a column stored as JSON text may hold. `read` judges a JSON
text by a type and gives the value in the type's own form: members of free objects sorted by
key, fields of a fixed object in the order of their declaration. `admits` says which values are
in that form; the zero value of every type is.
-/

namespace TableRecords

/-- What a column stored as JSON text holds. -/
inductive JsonType where
  | any
  | integer (kind : IntKind)
  | text
  | list (item : JsonType)
  | dict (item : JsonType)
  | object (fields : List (String × JsonType))
  deriving Inhabited

namespace Json

/-- Numbers that a JSON text can give: integers of 64 bits with or without sign and finite
binary64 numbers. -/
def isReadable : JsonNumber → Bool
  | .integer n => IntKind.int64.min ≤ n && n ≤ IntKind.uint64.max
  | .real x => x.isFinite

/-- Whether the keys stand in strictly increasing order. -/
def sortedKeys : List (String × Json) → Bool
  | [] => true
  | [_] => true
  | (k, _) :: (l, j) :: rest => decide (k < l) && sortedKeys ((l, j) :: rest)

mutual

/-- Free values in their own form: readable numbers, objects sorted by key. -/
def isCanonical : Json → Bool
  | .null | .bool _ | .text _ => true
  | .number n => isReadable n
  | .array items => areCanonical items
  | .object members => sortedKeys members && membersCanonical members

/-- Whether all items are in their own form. -/
def areCanonical : List Json → Bool
  | [] => true
  | j :: rest => j.isCanonical && areCanonical rest

/-- Whether the values of all members are in their own form. -/
def membersCanonical : List (String × Json) → Bool
  | [] => true
  | (_, j) :: rest => j.isCanonical && membersCanonical rest

end

mutual

/-- Reads a free value that may nest `depth` levels deep. -/
def readAny (depth : Nat) : Source → Option Json
  | .null => some .null
  | .bool b => some (.bool b)
  | .number n => n.number?.map .number
  | .text units => (Source.string? units).map .text
  | .array items => if depth = 0 then none else (readItems (depth - 1) items).map .array
  | .object members =>
    if depth = 0 then none
    else (readMembers (depth - 1) members).map fun ms => .object (ofMembers ms)

/-- Reads the items of an array. -/
def readItems (depth : Nat) : List Source → Option (List Json)
  | [] => some []
  | s :: rest => do return (← readAny depth s) :: (← readItems depth rest)

/-- Reads the members of an object in the order in which they are written. -/
def readMembers (depth : Nat) : List (List StringUnit × Source) → Option (List (String × Json))
  | [] => some []
  | (k, s) :: rest => do
    return (← Source.string? k, ← readAny depth s) :: (← readMembers depth rest)

end
end Json

namespace JsonType

open Json

mutual

/-- The value of a field that was never set. -/
def zero : JsonType → Json
  | any => .null
  | integer _ => .number (.integer 0)
  | text => .text ""
  | list _ => .array []
  | dict _ => .object []
  | object fields => .object (zeroFields fields)

/-- The members of a fixed object whose fields were never set. -/
def zeroFields : List (String × JsonType) → List (String × Json)
  | [] => []
  | (name, t) :: rest => (name, t.zero) :: zeroFields rest

end

mutual

/-- Whether a value is one of the type, in the type's own form. -/
def admits : JsonType → Json → Bool
  | any, j => j.isCanonical
  | integer k, .number (.integer n) => decide (k.Holds n)
  | text, .text _ => true
  | list t, .array items => items.all t.admits
  | dict t, .object members => sortedKeys members && members.all fun m => t.admits m.2
  | object fields, .object members => admitsFields fields members
  | _, _ => false

/-- Whether members are exactly the fields, in order, each with a value of its type. -/
def admitsFields : List (String × JsonType) → List (String × Json) → Bool
  | [], [] => true
  | (name, t) :: fields, (key, j) :: members =>
    name == key && t.admits j && admitsFields fields members
  | _, _ => false

end

mutual

theorem admits_zero : (t : JsonType) → t.admits t.zero = true
  | any => rfl
  | integer k => by simp [zero, admits, IntKind.holds_zero]
  | text => rfl
  | list _ => by simp [zero, admits]
  | dict _ => by simp [zero, admits, sortedKeys]
  | object fields => by simpa [zero, admits] using admitsFields_zeroFields fields

theorem admitsFields_zeroFields :
    (fields : List (String × JsonType)) → admitsFields fields (zeroFields fields) = true
  | [] => rfl
  | (_, t) :: rest => by
    simp [zeroFields, admitsFields, admits_zero t, admitsFields_zeroFields rest]

end

/-- The only value of a key, if the key is there exactly once. -/
def onlyMember? (name : String) (members : List (String × Source)) : Option Source :=
  match members.filter fun m => m.1 == name with
  | [(_, s)] => some s
  | _ => none

mutual

/-- Reads a value of the type that may nest `depth` levels deep. A fixed object is written as
an object that has every field once, with members of other names let be, or as an array of the
fields in order. -/
def read : JsonType → (depth : Nat) → Source → Option Json
  | any, depth, s => readAny depth s
  | integer k, _, .number n =>
    match n.number? with
    | some (.integer i) => if k.Holds i then some (.number (.integer i)) else none
    | _ => none
  | text, _, .text units => (Source.string? units).map .text
  | list t, depth + 1, .array items => (items.mapM (t.read depth)).map .array
  | dict t, depth + 1, .object members => do
    let ms ← members.mapM fun m => do return (← Source.string? m.1, ← t.read depth m.2)
    return .object (ofMembers ms)
  | object fields, depth + 1, .object members => do
    let ms ← members.mapM fun m => do return (← Source.string? m.1, m.2)
    return .object (← readFields fields depth ms)
  | object fields, depth + 1, .array items =>
    if items.length = fields.length then (readItems fields depth items).map .object else none
  | _, _, _ => none

/-- Reads the fields of an object by name. -/
def readFields : List (String × JsonType) → (depth : Nat) → List (String × Source) →
    Option (List (String × Json))
  | [], _, _ => some []
  | (name, t) :: fields, depth, members => do
    let s ← onlyMember? name members
    return (name, ← t.read depth s) :: (← readFields fields depth members)

/-- Reads the fields of an object by position. -/
def readItems : List (String × JsonType) → (depth : Nat) → List Source →
    Option (List (String × Json))
  | (name, t) :: fields, depth, s :: items => do
    return (name, ← t.read depth s) :: (← readItems fields depth items)
  | _, _, _ => some []

end

/-- How deep arrays and objects may nest in a JSON text. -/
def maxDepth : Nat := 127

/-- The values of a type, in the type's own form. -/
def Carrier (t : JsonType) : Type := { j : Json // t.admits j = true }

/-- The value of the type that a JSON text writes. -/
def parse? (t : JsonType) (bytes : ByteArray) : Option t.Carrier := do
  let j ← t.read maxDepth (← Source.parse bytes)
  if h : t.admits j = true then some ⟨j, h⟩ else none

end JsonType
end TableRecords
