import TableRecords.Error

/-!
# Faults of the engine

Why the engine refuses a statement or fails while it runs one, and how the driver words it. A
fault that is found while a text is read tells the byte at which it stands.
-/

namespace TableRecords.Embedded

/-- A failure of the engine. -/
inductive Fault where
  | unexpected (near : String) (offset : Nat)
  | illegal (near : String) (offset : Nat)
  | incomplete
  | noSuchTable (table : String)
  | noSuchColumn (column : String) (offset : Option Nat)
  | noSuchFunction (name : String) (offset : Nat)
  | argumentCount (name : String) (offset : Nat)
  | noColumnNamed (table column : String)
  | tableExists (table : String)
  | duplicateColumn (column : String)
  | valueCount (values columns : Nat)
  | tableWidth (table : String) (columns values : Nat)
  /-- Columns of no table were asked for. -/
  | noTables
  /-- No id is left for a row. -/
  | full
  /-- The last column of a table cannot be dropped. -/
  | lastColumn (column : String)
  /-- A value that is no integer, for a row's id. -/
  | mismatch
  | notNull (table column : String)
  | unique (columns : List String)
  | check (text : String)
  | foreignKey
  | overflow
  | readOnly
  | locked
  | nestedTransaction
  | nothingToCommit
  | nothingToRollback
  | paramCount (given needed : Nat)
  /-- A statement without words was run. -/
  | noStatement
  | notADatabase
  deriving DecidableEq

namespace Fault

/-- What is said, and the byte that is named with it. -/
def wording : Fault → String × Option Nat
  | unexpected near offset => (s!"near \"{near}\": syntax error", some offset)
  | illegal near offset => (s!"unrecognized token: \"{near}\"", some offset)
  | incomplete => ("incomplete input", none)
  | noSuchTable table => (s!"no such table: {table}", none)
  | noSuchColumn column offset => (s!"no such column: {column}", offset)
  | noSuchFunction name offset => (s!"no such function: {name}", some offset)
  | argumentCount name offset =>
    (s!"wrong number of arguments to function {name}()", some offset)
  | noColumnNamed table column => (s!"table {table} has no column named {column}", none)
  | tableExists table => (s!"table {table} already exists", none)
  | duplicateColumn column => (s!"duplicate column name: {column}", none)
  | valueCount values columns => (s!"{values} values for {columns} columns", none)
  | tableWidth table columns values =>
    (s!"table {table} has {columns} columns but {values} values were supplied", none)
  | noTables => ("no tables specified", none)
  | full => ("database or disk is full", none)
  | lastColumn column =>
    (s!"cannot drop column {Text.quoted column}: no other columns exist", none)
  | mismatch => ("datatype mismatch", none)
  | notNull table column => (s!"NOT NULL constraint failed: {table}.{column}", none)
  | unique columns => ("UNIQUE constraint failed: " ++ String.intercalate ", " columns, none)
  | check text => (s!"CHECK constraint failed: {text}", none)
  | foreignKey => ("FOREIGN KEY constraint failed", none)
  | overflow => ("integer overflow", none)
  | readOnly => ("attempt to write a readonly database", none)
  | locked => ("database is locked", none)
  | nestedTransaction => ("cannot start a transaction within a transaction", none)
  | nothingToCommit => ("cannot commit - no transaction is active", none)
  | nothingToRollback => ("cannot rollback - no transaction is active", none)
  | paramCount given needed =>
    (s!"Wrong number of parameters passed to query. Got {given}, needed {needed}", none)
  | noStatement => ("not an error", none)
  | notADatabase => ("file is not a database", none)

/-- The result code. A wrong number of arguments is found before the engine is asked. -/
def code : Fault → Option Int
  | paramCount .. => none
  | locked => some 5
  | readOnly => some 8
  | full => some 13
  | check _ => some 275
  | foreignKey => some 787
  | notNull .. => some 1299
  | unique _ => some 2067
  | mismatch => some 20
  | noStatement => some 21
  | notADatabase => some 26
  | _ => some 1

/-- The message for a fault that is found while `sql` is prepared. -/
def preparing (f : Fault) (sql : String) : String :=
  match f.wording with
  | (text, some offset) => s!"{text} in {sql} at offset {offset}"
  | (text, none) => text

/-- The message for a fault that is found while a statement runs. -/
def running (f : Fault) : String := f.wording.1

end Fault
end TableRecords.Embedded
