import TableRecords.Error
import TableRecords.Field.Binary
import TableRecords.Json.Schema
import TableRecords.Text.Ascii

/-!
# Field types

What the fields of a record hold and how they go to a column and back. `encode` gives the value
that is bound for a field, `decode` the content of a field that is read from a column. NULL
decodes to the zero of a type and to "nothing" for an optional one; integers widen to floats;
texts and blobs stand for each other where the bytes allow it.
-/

namespace TableRecords

/-- The type of a field. -/
inductive FieldType where
  | int (kind : IntKind)
  | float32
  | float64
  | bool
  | text
  | bytes
  /-- Any value, as it is. -/
  | value
  /-- One of the texts `first`, `others`; NULL stands for `first`. -/
  | enumeration (name first : String) (others : List String)
  /-- A JSON value, stored as text. -/
  | json (t : JsonType)
  /-- A field that may hold nothing. -/
  | option (t : FieldType)
  deriving Inhabited

namespace FieldType

/-- What a field of the type holds. -/
def Carrier : FieldType → Type
  | int k => k.Carrier
  | float32 => Float32
  | float64 => Float
  | bool => Bool
  | text => String
  | bytes => ByteArray
  | value => Value
  | enumeration _ first others => { s : String // s ∈ first :: others }
  | json t => t.Carrier
  | option t => Option t.Carrier

/-- What a field holds that was never set. -/
def zero : (t : FieldType) → t.Carrier
  | int k => ⟨0, k.holds_zero⟩
  | float32 => (0 : Float32)
  | float64 => (0 : Float)
  | bool => false
  | text => ""
  | bytes => ByteArray.empty
  | value => Value.null
  | enumeration _ first _ => ⟨first, List.mem_cons_self⟩
  | json t => ⟨t.zero, t.admits_zero⟩
  | option _ => none

/-- A binary32 number as a value. -/
def ofFloat32 (x : Float32) : Value := .real (Binary.widen x)

/-- A truth value as a value: one for true and zero for false. -/
def ofBool (b : Bool) : Value := .integer (if b then 1 else 0)

/-- The value of an integer. Only numbers of 64 bits with sign are bound. -/
def ofInteger (n : Int) : Except CoerceError Value :=
  if IntKind.int64.Holds n then .ok (.integer (Int64.ofInt n))
  else .error (.outOfRange IntKind.int64.name n)

/-- The value that is bound for a field. -/
def encode : (t : FieldType) → t.Carrier → Except CoerceError Value
  | int _, n => ofInteger n.val
  | float32, x => .ok (ofFloat32 x)
  | float64, x => .ok (.real x)
  | bool, b => .ok (ofBool b)
  | text, s => .ok (.text s)
  | bytes, b => .ok (.blob b)
  | value, v => .ok v
  | enumeration .., s => .ok (.text s.val)
  | json _, j => .ok (.text j.val.render)
  | option t, x => match x with
    | none => .ok .null
    | some y => t.encode y

/-- Reads an integer of a kind. -/
def decodeInteger (k : IntKind) : Value → Except CoerceError k.Carrier
  | .null => .ok ⟨0, k.holds_zero⟩
  | .integer n =>
    if h : k.Holds n.toInt then .ok ⟨n.toInt, h⟩ else .error (.outOfRange k.name n.toInt)
  | v => .error (.ofKind k.name v)

/-- Reads a truth value: an integer, or one of six words in any letter case. -/
def decodeBool : Value → Except CoerceError Bool
  | .null => .ok false
  | .integer n => .ok (n != 0)
  | .text s =>
    if Text.asciiLower s ∈ ["true", "t", "1"] then .ok true
    else if Text.asciiLower s ∈ ["false", "f", "0"] then .ok false
    else .error (.unknownVariant "bool" s)
  | v => .error (.ofKind "bool" v)

/-- Reads a text, or a blob that is one in UTF-8. -/
def decodeText : Value → Except CoerceError String
  | .null => .ok ""
  | .text s => .ok s
  | .blob b =>
    match String.fromUTF8? b with
    | some s => .ok s
    | none => .error (.mismatch "String" "non-UTF-8 blob")
  | v => .error (.ofKind "String" v)

/-- Reads a blob, or the bytes of a text. -/
def decodeBytes : Value → Except CoerceError ByteArray
  | .null => .ok ByteArray.empty
  | .blob b => .ok b
  | .text s => .ok s.toUTF8
  | v => .error (.ofKind "Vec<u8>" v)

/-- Reads a JSON text. -/
def decodeJson (t : JsonType) (bytes : ByteArray) : Except CoerceError t.Carrier :=
  match t.parse? bytes with
  | some j => .ok j
  | none => .error .json

/-- What a field holds for the value of a column. -/
def decode : (t : FieldType) → Value → Except CoerceError t.Carrier
  | int k, v => decodeInteger k v
  | float32, v => match v with
    | .null => .ok (0 : Float32)
    | .real x => .ok (Binary.narrow x)
    | .integer n => .ok (Binary.narrowOfInt64 n)
    | v => .error (.ofKind "f32" v)
  | float64, v => match v with
    | .null => .ok (0 : Float)
    | .real x => .ok x
    | .integer n => .ok (Binary.ofInt64 n)
    | v => .error (.ofKind "f64" v)
  | bool, v => decodeBool v
  | text, v => decodeText v
  | bytes, v => decodeBytes v
  | value, v => .ok v
  | enumeration name first others, v => match v with
    | .null => .ok ⟨first, List.mem_cons_self⟩
    | .text s =>
      if h : s ∈ first :: others then .ok ⟨s, h⟩ else .error (.unknownVariant name s)
    | v => .error (.ofKind name v)
  | json t, v => match v with
    | .null => .ok ⟨t.zero, t.admits_zero⟩
    | .text s => decodeJson t s.toUTF8
    | .blob b => decodeJson t b
    | v => .error (.ofKind "JSON text" v)
  | option t, v => match v with
    | .null => .ok none
    | v => (t.decode v).map some

/-- A field that holds a given number, for the types that hold numbers of 64 bits. -/
def ofNumber? : (t : FieldType) → Int → Option t.Carrier
  | int k, n => if h : k.Holds n then some ⟨n, h⟩ else none
  | option t, n => (t.ofNumber? n).map some
  | _, _ => none

end FieldType
end TableRecords
