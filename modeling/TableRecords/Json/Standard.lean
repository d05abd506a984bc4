import TableRecords.Json.Library
import TableRecords.Text.Base64

/-!
# The JSON library that programs run with

JSON is printed without blanks and bytes are written in the standard alphabet.
-/

namespace TableRecords

instance : JsonLibrary where
  print := Json.render
  base64 := Text.Base64.encode

end TableRecords
