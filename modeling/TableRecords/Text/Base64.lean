/-!
# Base64

The standard alphabet with padding: three bytes become four characters, and a rest of one or
two bytes is filled up with `=`.
-/

namespace TableRecords.Text.Base64

/-- The 64 characters in the order of their values. -/
def alphabet : List Char :=
  "ABCDEFGHIJKLMNOPQRSTUVWXYZabcdefghijklmnopqrstuvwxyz0123456789+/".toList

/-- The character of a six-bit value. -/
def digit (n : Nat) : Char := alphabet.getD n '='

/-- The four characters of a group of three bytes. -/
def group (a b c : UInt8) : List Char :=
  let n := a.toNat * 65536 + b.toNat * 256 + c.toNat
  [digit (n / 262144), digit (n / 4096 % 64), digit (n / 64 % 64), digit (n % 64)]

/-- Base64 of a list of bytes. -/
def encodeBytes : List UInt8 → List Char
  | [] => []
  | [a] => (group a 0 0).take 2 ++ ['=', '=']
  | [a, b] => (group a b 0).take 3 ++ ['=']
  | a :: b :: c :: rest => group a b c ++ encodeBytes rest

/-- Base64 text of a blob. -/
def encode (bytes : ByteArray) : String := String.ofList (encodeBytes bytes.data.toList)

end TableRecords.Text.Base64
