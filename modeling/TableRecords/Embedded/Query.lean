import TableRecords.Embedded.Reading

/-!
# Evaluating queries

Terms are evaluated over the cells of a row, in three-valued logic. A query gives its rows one
by one: a row that fails ends the result, and the rows before it were read.
-/

namespace TableRecords.Embedded

namespace Cell

/-- The truth of a cell: NULL is unknown, and what is no number is false. -/
def truth : Cell → Option Bool
  | null => none
  | integer n => some (n != 0)
  | c => some (c.asReal != 0)

/-- A truth as a cell. -/
def ofTruth : Option Bool → Cell
  | none => null
  | some b => ofBool b

/-- The negation of a number. -/
def negate : Cell → Cell
  | null => null
  | integer n => if n = Int64.minValue then real 9223372036854775808.0 else integer (-n)
  | real x => real (-x)
  | c =>
    match cast .numeric c with
    | integer n => integer (-n)
    | c => real (-c.asReal)

/-- The magnitude of a number. The least integer has none. -/
def magnitude : Cell → Except Fault Cell
  | null => .ok null
  | integer n =>
    if n = Int64.minValue then .error .overflow
    else .ok (integer (if n < 0 then -n else n))
  | c => .ok (real (if c.asReal < 0 then -c.asReal else c.asReal))

end Cell

/-- Whether an order is what a comparison asks for. -/
def Comparison.holds : Comparison → Ordering → Bool
  | eq, o => o == .eq
  | ne, o => o != .eq
  | lt, o => o == .lt
  | le, o => o != .gt
  | gt, o => o == .gt
  | ge, o => o != .lt

/-- The value of a term. -/
def Expr.eval (args cells : List Cell) : Term → Except Fault Cell
  | .literal c => .ok c
  | .param n => .ok (args.getD (n - 1) .null)
  | .column place => .ok (cells.getD place.index .null)
  | .negate e => do return (← eval args cells e).negate
  | .not e => do return .ofTruth ((← eval args cells e).truth.map (!·))
  | .isNull e => do return .ofBool (← eval args cells e).isNull
  | .compare op a b => do
    let x ← eval args cells a
    let y ← eval args cells b
    if x.isNull || y.isNull then return .null
    let (x, y) := Cell.forComparison (QueryPlan.affinityOf a) x (QueryPlan.affinityOf b) y
    return .ofBool (op.holds (x.order y))
  | .and a b => do
    match (← eval args cells a).truth, (← eval args cells b).truth with
    | some false, _ | _, some false => return .ofBool false
    | some true, some true => return .ofBool true
    | _, _ => return .null
  | .or a b => do
    match (← eval args cells a).truth, (← eval args cells b).truth with
    | some true, _ | _, some true => return .ofBool true
    | some false, some false => return .ofBool false
    | _, _ => return .null
  | .cast a e => do return (← eval args cells e).cast a
  | .abs e => do (← eval args cells e).magnitude
  | .refused f => .error f

/-- Whether a row meets a condition; an unknown answer does not. -/
def meets (args : List Cell) (condition : Option Term) (cells : List Cell) :
    Except Fault Bool :=
  match condition with
  | none => .ok true
  | some e => do return (← e.eval args cells).truth = some true

/-- Rows of cells in the order in which they are read; the first fault ends them. -/
abbrev Rows : Type := List (Except Fault (List Cell))

namespace Rows

/-- The rows that a function gives for each row; a row may give none. -/
def filterMap (f : List Cell → Except Fault (Option (List Cell))) : Rows → Rows
  | [] => []
  | .error e :: _ => [.error e]
  | .ok cells :: rest =>
    match f cells with
    | .error e => [.error e]
    | .ok none => filterMap f rest
    | .ok (some cells) => .ok cells :: filterMap f rest

/-- All rows, or the first fault. -/
def all (rows : Rows) : Except Fault (List (List Cell)) := rows.mapM id

end Rows

namespace QueryPlan

/-- The order of two lists of sort keys. -/
def compareKeys : List SortPlan → List Cell → List Cell → Ordering
  | s :: rest, a :: as, b :: bs =>
    let o := a.order b
    let o := if s.descending then o.swap else o
    if o = .eq then compareKeys rest as bs else o
  | _, _, _ => .eq

/-- A count that a query gives: nothing if it is left out or is negative. -/
def countOf (args : List Cell) (e : Option Term) : Except Fault (Option Nat) :=
  match e with
  | none => .ok none
  | some e => do
    match Cell.store .integer (← e.eval args []) with
    | .integer n => return if n < 0 then none else some n.toInt.toNat
    | _ => throw .mismatch

/-- The rows of a query from the rows of its source. -/
def rowsFrom (args : List Cell) (source : Rows) (columns : List (String × Term))
    (condition : Option Term) (order : List SortPlan) (limit offset : Option Term) : Rows :=
  let selected := source.filterMap fun cells => do
    return if ← meets args condition cells then some cells else none
  let project := fun (cells : List Cell) => columns.mapM fun c => c.2.eval args cells
  let cut := fun (rows : Rows) =>
    match countOf args limit, countOf args offset with
    | .error f, _ | _, .error f => [.error f]
    | .ok limit, .ok offset =>
      let rows := rows.drop (offset.getD 0)
      match limit with
      | none => rows
      | some n => rows.take n
  if order.isEmpty then cut (selected.filterMap fun cells => (project cells).map some)
  else if (countOf args limit).toOption = some (some 0) then []
  else
    let keyed : Except Fault (List (List Cell × List Cell)) := do
      (← selected.all).mapM fun cells => do
        return (← order.mapM fun s => s.term.eval args cells, ← project cells)
    match keyed with
    | .error f => [.error f]
    | .ok keyed =>
      cut ((keyed.mergeSort fun a b => compareKeys order a.1 b.1 != .gt).map fun r => .ok r.2)

/-- The rows of a table as terms see them, in the order of a reading. -/
def tableRows (t : StoredTable) (r : Reading) : Rows :=
  (t.rowsIn r).map fun row => .ok (t.cellsOf row)

mutual

/-- The rows of a query. A table that is read in the order asked for is not sorted again. -/
def rows (content : Content) (args : List Cell) : QueryPlan → Rows
  | .mk (.table name) columns condition order limit offset =>
    match content.find? name with
    | none => []
    | some t =>
      let reading := t.reading (columns.map (·.2)) condition order
      let left := if reading.isSorted then [] else order
      rowsFrom args (tableRows t reading) columns condition left limit offset
  | .mk source columns condition order limit offset =>
    rowsFrom args (sourceRows content args source) columns condition order limit offset

/-- The rows of a source. -/
def sourceRows (content : Content) (args : List Cell) : RowPlan → Rows
  | .single => [.ok []]
  | .table name =>
    match content.find? name with
    | some t => tableRows t {}
    | none => []
  | .setting cell => [.ok [cell]]
  | .query q => rows content args q

end

mutual

/-- Whether a query reads a table. -/
def readsTable : QueryPlan → Bool
  | .mk source _ _ _ _ _ => sourceReadsTable source

/-- Whether a source is, or reads, a table. -/
def sourceReadsTable : RowPlan → Bool
  | .table _ => true
  | .query q => readsTable q
  | _ => false

end

end QueryPlan
end TableRecords.Embedded
