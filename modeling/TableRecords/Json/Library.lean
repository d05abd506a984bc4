import TableRecords.Json.Basic

/-!
# Writing JSON and base64

The text of a JSON value and the base64 text of bytes are made by libraries that a program is linked
with. All that depends on them takes them as a `JsonLibrary`.
-/

namespace TableRecords

/-- The functions that make texts of JSON values and of bytes. -/
class JsonLibrary where
  /-- The text of a JSON value. -/
  print : Json → String
  /-- The base64 text of bytes. -/
  base64 : ByteArray → String

end TableRecords
