import TableRecords.Embedded.Plan

/-!
# The order in which a table is read

The rows of a table are read in the order of their ids, or in that of columns that are unique
together. The second way is taken if it finds the rows of a condition faster, if it gives them in
the order that a query asks for, or if it holds all that the query needs in less space. It shows
in the order of the rows of a query that asks for none, and of rows that are equal in the order
that it asks for.
-/

namespace TableRecords.Embedded

namespace Expr

/-- The conditions that are joined by AND. -/
def conjuncts : Term → List Term
  | .and a b => conjuncts a ++ conjuncts b
  | e => [e]

/-- The places that a term reads. -/
def places : Term → List Nat
  | .column place => [place.index]
  | .literal _ | .param _ | .refused _ => []
  | .negate e | .not e | .isNull e | .cast _ e | .abs e => places e
  | .compare _ a b | .and a b | .or a b => places a ++ places b

/-- Whether a term is a literal or a parameter. -/
def isFixed : Term → Bool
  | .literal _ | .param _ => true
  | _ => false

end Expr

/-- The test of a column against a fixed value, for equality or for a range. -/
structure KeyTest where
  index : Nat
  isEqual : Bool
  deriving DecidableEq

namespace KeyTest

/-- The test that a comparison makes of a column. -/
def ofComparison (op : Comparison) (place : Place) : Option KeyTest :=
  match op with
  | .eq => some ⟨place.index, true⟩
  | .ne => none
  | _ => some ⟨place.index, false⟩

/-- The test that a condition makes. -/
def ofTerm? : Term → Option KeyTest
  | .compare op (.column place) e => if e.isFixed then ofComparison op place else none
  | .compare op e (.column place) => if e.isFixed then ofComparison op place else none
  | .isNull (.column place) => some ⟨place.index, true⟩
  | _ => none

end KeyTest

/-- The order in which a table is read: that of some columns and then of the ids, or the reverse
of that. -/
structure Reading where
  columns : List Nat := []
  reversed : Bool := false
  /-- Whether this is the order that the query asks for. -/
  isSorted : Bool := false
  deriving DecidableEq

namespace StoredTable

/-- The cells of a row as terms see them: the id stands at the end if no column names it. -/
def cellsOf (t : StoredTable) (row : Row) : List Cell :=
  if t.definition.idColumn?.isSome then row.cells else row.cells ++ [.integer row.id]

/-- The place at which terms see the id. -/
def idPlace (t : StoredTable) : Nat :=
  t.definition.idColumn?.getD t.definition.columns.length

/-- The space of a column: texts and blobs take more than numbers. -/
def columnSpace (d : TableDef) (i : Nat) : Nat :=
  let isNamed := d.columns[i]?.any fun c => !c.typeName.isEmpty
  if isNamed ∧ d.affinityAt i ∈ [Affinity.text, Affinity.none] then 5 else 1

/-- The space of the columns that are kept in order, with the id. -/
def orderedSpace (d : TableDef) (columns : List Nat) : Nat :=
  columns.foldl (fun n i => n + columnSpace d i) 1

/-- The space of a row. -/
def rowSpace (d : TableDef) : Nat :=
  (List.range d.columns.length).foldl (fun n i => n + columnSpace d i)
    (if d.idColumn?.isSome then 0 else 1)

/-- Whether rows in the order of some columns, or in its reverse, are in a sort order. -/
def givesOrder (order : List SortPlan) (columns : List Nat) : Bool :=
  let sorted := order.map fun s =>
    match s.term with
    | .column place => some place.index
    | _ => none
  !order.isEmpty && sorted.isPrefixOf (columns.map some) &&
    order.all fun s => s.descending == order.any (·.descending)

/-- The order in which a table is read for a query with terms, a condition and a sort order. -/
def reading (t : StoredTable) (terms : List Term) (condition : Option Term)
    (order : List SortPlan) : Reading :=
  let d := t.definition
  let tests := ((condition.map Expr.conjuncts).getD []).filterMap KeyTest.ofTerm?
  let tested := fun (isEqual : Bool) (columns : List Nat) =>
    columns.head?.any fun i => tests.any (· == ⟨i, isEqual⟩)
  let used := (terms ++ condition.toList ++ order.map (·.term)).flatMap Expr.places
  let narrow := fun (columns : List Nat) =>
    orderedSpace d columns < rowSpace d && used.all fun i => i ∈ t.idPlace :: columns
  let byId := fun (p : List Nat → Bool) => if p [t.idPlace] then some [] else none
  let byColumns := fun (p : List Nat → Bool) => d.uniqueIndexes.find? p
  let columns := (byId (tested true) <|> byColumns (tested true) <|> byId (givesOrder order)
    <|> byColumns (givesOrder order) <|> byId (tested false) <|> byColumns (tested false)
    <|> byColumns narrow).getD []
  let isSorted := givesOrder order (columns ++ [t.idPlace])
  { columns, isSorted, reversed := isSorted && order.any (·.descending) }

/-- The order of two lists of cells by the first that differ. -/
def compareCells : List Cell → List Cell → Ordering
  | a :: as, b :: bs => (a.order b).then (compareCells as bs)
  | _, _ => .eq

/-- The rows of a table in the order of a reading. -/
def rowsIn (t : StoredTable) (r : Reading) : List Row :=
  let key := fun (row : Row) => r.columns.map fun i => row.cells.getD i .null
  let rows := t.rows.mergeSort fun a b => compareCells (key a) (key b) != .gt
  if r.reversed then rows.reverse else rows

end StoredTable
end TableRecords.Embedded
