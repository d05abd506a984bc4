import TableRecords.Dialect

/-!
# Generated SQL

A generated statement is a list of fragments: fixed text, column names and placeholders. Only
`render` knows how a dialect writes them, so a value can reach the text of a statement through
no other way than the number of its placeholder.
-/

namespace TableRecords.Sql

/-- A part of a generated statement. -/
inductive Fragment where
  /-- Text that is written as it stands. -/
  | text (s : String)
  /-- A column name, which the dialect quotes. -/
  | ident (column : String)
  /-- The placeholder of the argument at a position, counted from one. -/
  | param (n : Nat)
  deriving DecidableEq, Repr

/-- The characters of a fragment in a dialect. -/
def Fragment.chars (d : Dialect) : Fragment → List Char
  | text s => s.toList
  | ident column => d.quoteIdent column.toList
  | param n => d.placeholder n

/-- The text of a list of fragments in a dialect. -/
def render (d : Dialect) (fragments : List Fragment) : String :=
  String.ofList (fragments.flatMap (Fragment.chars d))

/-- Lists of fragments with a text between each two. -/
def separated (separator : String) : List (List Fragment) → List Fragment
  | [] => []
  | [item] => item
  | item :: rest => item ++ .text separator :: separated separator rest

/-- `a, b, c` -/
def columnList (columns : List String) : List Fragment :=
  separated ", " (columns.map fun c => [.ident c])

/-- The placeholders of `count` arguments from position `first` on, between parentheses. -/
def rowOf (first count : Nat) : List Fragment :=
  .text "(" :: separated ", " ((List.range' first count).map fun n => [.param n]) ++ [.text ")"]

/-- `a = 1st`, `b = 2nd`, … with placeholders from position `first` on. -/
def equalities (separator : String) (first : Nat) (columns : List String) : List Fragment :=
  separated separator
    ((columns.zip (List.range' first columns.length)).map fun (c, n) =>
      [.ident c, .text " = ", .param n])

end TableRecords.Sql
