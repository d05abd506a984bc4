import TableRecords.Json.Library

/-!
# Column values

`Value` is what a column of a row holds and what a statement binds: NULL, a 64-bit integer, a
binary64 number, a text or a blob. The zero value of each kind marks a key that is not yet
assigned.
-/

namespace TableRecords

/-- Bytes are compared as the core library does, whatever else is imported. -/
instance (priority := high) bytesDecidableEq : DecidableEq ByteArray := ByteArray.instDecidableEq

/-- A value of one column. -/
inductive Value where
  | null
  | integer (n : Int64)
  | real (x : Float)
  | text (s : String)
  | blob (bytes : ByteArray)
  deriving DecidableEq

namespace Value

/-- The name of the kind, as messages use it. -/
def kind : Value → String
  | null => "null"
  | integer _ => "integer"
  | real _ => "real"
  | text _ => "text"
  | blob _ => "blob"

/-- Whether the value is NULL. -/
def isNull : Value → Bool
  | null => true
  | _ => false

/-- Whether the value is NULL or the zero of its kind. A key column that holds such a value is
not yet assigned. Negative zero is zero. -/
def isZero : Value → Bool
  | null => true
  | integer n => n == 0
  | real x => x == 0
  | text s => s.isEmpty
  | blob bytes => bytes.isEmpty

/-- The JSON form of a value captured from a column without a field: a blob becomes base64
text, and a number that is not finite becomes `null`. -/
def toJson [JsonLibrary] : Value → Json
  | null => .null
  | integer n => .number (.integer n.toInt)
  | real x => if x.isFinite then .number (.real x) else .null
  | text s => .text s
  | blob bytes => .text (JsonLibrary.base64 bytes)

end Value
end TableRecords
