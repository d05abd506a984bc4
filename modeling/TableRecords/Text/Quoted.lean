import TableRecords.Text.Shown

/-!
# Quoted text in messages

Messages quote a text between double quotes: `"`, the backslash, tab, line feed, carriage
return and NUL have two-character escapes, a character that is not shown is written as its
code point in hexadecimal, and all else stands for itself.
-/

namespace TableRecords.Text

/-- The lower-case hexadecimal digits of a number. -/
def hexDigits (n : Nat) : List Char := Nat.toDigits 16 n

/-- One character inside the quotes. -/
def quoteChar (c : Char) : List Char :=
  match c with
  | '\x00' => ['\\', '0']
  | '\t' => ['\\', 't']
  | '\n' => ['\\', 'n']
  | '\x0d' => ['\\', 'r']
  | '\\' => ['\\', '\\']
  | '\x22' => ['\\', '\x22']
  | c => if isShown c then [c] else '\\' :: 'u' :: '\x7b' :: hexDigits c.toNat ++ ['\x7d']

/-- A text between quotes, as messages show it. -/
def quoted (s : String) : String :=
  String.ofList ('\x22' :: s.toList.flatMap quoteChar ++ ['\x22'])

/-- Items between brackets, separated by a comma and a space. -/
def bracketed (items : List String) : String := "[" ++ String.intercalate ", " items ++ "]"

end TableRecords.Text
