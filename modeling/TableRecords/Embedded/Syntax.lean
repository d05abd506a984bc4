import TableRecords.Embedded.Affinity
import TableRecords.Embedded.Fault

/-!
# Statements of the engine

The statements that the engine runs, as they are written: names are not resolved yet. A name
keeps the byte at which it stands, and a result column its text.
-/

namespace TableRecords.Embedded

/-- How two operands are compared. -/
inductive Comparison where
  | eq
  | ne
  | lt
  | le
  | gt
  | ge
  deriving DecidableEq, Repr

/-- An expression over a type of column references. -/
inductive Expr (κ : Type) where
  | literal (c : Cell)
  | param (n : Nat)
  | column (k : κ)
  | negate (e : Expr κ)
  | not (e : Expr κ)
  | isNull (e : Expr κ)
  | compare (op : Comparison) (a b : Expr κ)
  | and (a b : Expr κ)
  | or (a b : Expr κ)
  | cast (a : Affinity) (e : Expr κ)
  /-- The magnitude of a number. -/
  | abs (e : Expr κ)
  /-- A call that names no function, or gives one too many or too few arguments. -/
  | refused (f : Fault)
  deriving Inhabited

/-- The name of a column as it is written. -/
structure ColumnName where
  /-- The table in front of the name. -/
  table : Option String
  name : String
  /-- Whether it stands in double quotes, so that it is a string if there is no such column. -/
  quoted : Bool
  /-- The byte at which it stands. -/
  offset : Nat

/-- An expression as it is written. -/
abbrev RawExpr : Type := Expr ColumnName

/-- A result column. -/
inductive ResultColumn where
  | all
  | expr (e : RawExpr) (title : Option String) (text : String)

/-- The table or view that a query reads, with the name it goes by. -/
structure Source where
  table : String
  title : Option String

/-- A sort order. -/
structure SortTerm where
  expr : RawExpr
  descending : Bool

/-- A query. -/
structure Select where
  columns : List ResultColumn
  source : Option Source
  condition : Option RawExpr
  order : List SortTerm
  limit : Option RawExpr
  offset : Option RawExpr

/-- Queries that have a name in a statement. -/
abbrev Views : Type := List (String × Select)

/-- Where the rows of an insert come from. -/
inductive RowSource where
  | values (rows : List (List RawExpr))
  | query (q : Select)
  /-- One row of default values. -/
  | defaults

/-- A reference to the rows of another table. -/
structure Reference where
  columns : List String
  table : String
  /-- The columns that are referred to; none stands for the primary key. -/
  keys : List String
  /-- Whether it is checked at the end of a transaction only. -/
  deferred : Bool
  deriving DecidableEq, Repr, Inhabited

/-- A condition on every row of a table, with the text that names it. -/
structure Check where
  expr : RawExpr
  text : String

/-- The declaration of a column. -/
structure ColumnDef where
  name : String
  typeName : String
  notNull : Bool := false
  default : Option RawExpr := none

/-- The declaration of a table. -/
structure TableDef where
  columns : List ColumnDef
  primaryKey : List String := []
  autoincrement : Bool := false
  /-- Columns that are unique together, in order of declaration, the primary key among them. -/
  uniques : List (List String) := []
  checks : List Check := []
  references : List Reference := []

/-- A statement. -/
inductive Command where
  | select (views : Views) (q : Select)
  | insert (views : Views) (table : String) (columns : List String) (rows : RowSource)
      (returning : List ResultColumn)
  | update (table : String) (changes : List (String × RawExpr)) (condition : Option RawExpr)
      (returning : List ResultColumn)
  | delete (table : String) (condition : Option RawExpr) (returning : List ResultColumn)
  | createTable (table : String) (ifAbsent : Bool) (definition : TableDef)
  | dropTable (table : String) (ifPresent : Bool)
  | addColumn (table : String) (definition : ColumnDef)
  | renameColumn (table column name : String)
  | dropColumn (table column : String)
  | renameTable (table name : String)
  | begin
  | commit
  | rollback
  | pragma (name : String)
  /-- Blanks and comments only. -/
  | nothing

end TableRecords.Embedded
