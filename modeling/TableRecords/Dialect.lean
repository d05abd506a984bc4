import TableRecords.Error
import TableRecords.Text.Ascii
import TableRecords.Text.Blank

/-!
# SQL dialects

What differs between the four supported databases: how a placeholder is written, how an
identifier is quoted, and how values that the database assigns come back from an insert.
-/

namespace TableRecords

/-- A supported SQL dialect. -/
inductive Dialect where
  | postgres
  | mysql
  | sqlite
  | sqlServer
  deriving DecidableEq, Repr

/-- How values assigned by the database come back from an insert. -/
inductive InsertMethod where
  /-- A clause at the end names the columns whose values the insert returns. -/
  | returning
  /-- A clause before the values names the columns whose values the insert returns. -/
  | output
  /-- The driver reports the id of the row; a second statement reads the other columns. -/
  | lastInsertId
  deriving DecidableEq, Repr

namespace Dialect

/-- The canonical name. -/
def name : Dialect → String
  | postgres => "postgres"
  | mysql => "mysql"
  | sqlite => "sqlite3"
  | sqlServer => "sqlserver"

/-- The dialect of a name. Blanks around it and ASCII letter case do not count. -/
def ofName (text : String) : Except Error Dialect :=
  let name := Text.asciiLower (Text.trim text)
  if name = "postgres" ∨ name = "postgresql" ∨ name = "pgx" then .ok postgres
  else if name = "mysql" then .ok mysql
  else if name = "sqlite3" ∨ name = "sqlite" then .ok sqlite
  else if name = "sqlserver" ∨ name = "mssql" then .ok sqlServer
  else .error (.config s!"unsupported dialect: {Text.quoted name}")

/-- The placeholder of the argument at position `n`, counted from one. -/
def placeholder (d : Dialect) (n : Nat) : List Char :=
  match d with
  | postgres => '$' :: Nat.toDigits 10 n
  | mysql | sqlite => ['?']
  | sqlServer => '@' :: 'p' :: Nat.toDigits 10 n

/-- How assigned values come back from an insert. -/
def insertMethod : Dialect → InsertMethod
  | postgres => .returning
  | sqlServer => .output
  | mysql | sqlite => .lastInsertId

/-- The character that opens a quoted identifier. -/
def openQuote : Dialect → Char
  | postgres | sqlite => '\x22'
  | mysql => '\x60'
  | sqlServer => '['

/-- The character that closes a quoted identifier. -/
def closeQuote : Dialect → Char
  | postgres | sqlite => '\x22'
  | mysql => '\x60'
  | sqlServer => ']'

/-- Characters with every closing quote doubled. -/
def doubleQuotes (d : Dialect) (cs : List Char) : List Char :=
  cs.flatMap fun c => if c = d.closeQuote then [c, c] else [c]

/-- An identifier between the quotes of the dialect. -/
def quoteIdent (d : Dialect) (ident : List Char) : List Char :=
  d.openQuote :: d.doubleQuotes ident ++ [d.closeQuote]

/-- Reads the rest of a quoted identifier: two closing quotes stand for one, a single one ends
it. Gives the identifier and what follows. -/
def readQuoted (d : Dialect) : List Char → Option (List Char × List Char)
  | [] => none
  | [c] => if c = d.closeQuote then some ([], []) else none
  | c :: e :: rest =>
    if c = d.closeQuote then
      if e = d.closeQuote then (readQuoted d rest).map fun (ident, tail) => (c :: ident, tail)
      else some ([], e :: rest)
    else (readQuoted d (e :: rest)).map fun (ident, tail) => (c :: ident, tail)

/-- Reads a quoted identifier at the front of a text. -/
def readIdent (d : Dialect) : List Char → Option (List Char × List Char)
  | [] => none
  | c :: rest => if c = d.openQuote then readQuoted d rest else none

end Dialect
end TableRecords
