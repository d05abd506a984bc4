import TableRecords.Embedded.Content

/-!
# Plans

A statement is prepared by resolving its names in the content of a database. What comes out is a
plan, in which a column is a place in a row, or the fault of the first name that says nothing.
-/

namespace TableRecords.Embedded

/-- A column in a row. -/
structure Place where
  index : Nat
  affinity : Affinity
  deriving DecidableEq

/-- An expression over the cells of a row. -/
abbrev Term : Type := Expr Place

/-- A setting of a connection with the name of the column that shows it. -/
structure Setting where
  name : String
  column : String
  cell : Cell

/-- What names can speak of while a statement is prepared. -/
structure Scope where
  content : Content
  settings : List Setting

/-- The columns that names of an expression can speak of. -/
structure Columns where
  /-- The name in front of a column name. -/
  qualifier : Option String
  names : List String
  affinities : List Affinity
  /-- The column that other names of a row's id stand for. -/
  id : Option Nat

namespace Columns

/-- No columns. -/
def none : Columns := ⟨.none, [], [], .none⟩

/-- The columns of a table. A row of a table without a column for its id has the id at its end. -/
def ofTable (t : StoredTable) (qualifier : String) : Columns :=
  let d := t.definition
  ⟨some qualifier, d.columns.map (·.name),
    d.columns.map (fun c => Affinity.ofTypeName c.typeName) ++ [.integer],
    some (d.idColumn?.getD d.columns.length)⟩

/-- The names that a row's id has in every table. -/
def idNames : List String := ["rowid", "oid", "_rowid_"]

/-- The place of a name. -/
def find? (cs : Columns) (n : ColumnName) : Option Place :=
  let fits := match n.table, cs.qualifier with
    | .none, _ => true
    | some t, some q => Text.sameIgnoringCase t q
    | some _, .none => false
  if !fits then .none
  else
    let index := match cs.names.findIdx? fun c => Text.sameIgnoringCase c n.name with
      | some i => some i
      | .none => if Text.asciiLower n.name ∈ idNames then cs.id else .none
    index.map fun i => ⟨i, cs.affinities.getD i .none⟩

/-- The name of the column at a place. -/
def nameAt (cs : Columns) (i : Nat) : String := cs.names.getD i "rowid"

/-- The text of a name in a fault. -/
def written (n : ColumnName) : String :=
  match n.table with
  | some t => s!"{t}.{n.name}"
  | .none => n.name

/-- Resolves an expression. A name in double quotes that is no column is a string. -/
def resolve (cs : Columns) : RawExpr → Except Fault Term
  | .literal c => .ok (.literal c)
  | .param n => .ok (.param n)
  | .column n =>
    match cs.find? n with
    | some place => .ok (.column place)
    | .none =>
      if n.quoted then .ok (.literal (.ofString n.name))
      else .error (.noSuchColumn (written n) (some n.offset))
  | .negate e => do return .negate (← cs.resolve e)
  | .not e => do return .not (← cs.resolve e)
  | .isNull e => do return .isNull (← cs.resolve e)
  | .compare op a b => do return .compare op (← cs.resolve a) (← cs.resolve b)
  | .and a b => do return .and (← cs.resolve a) (← cs.resolve b)
  | .or a b => do return .or (← cs.resolve a) (← cs.resolve b)
  | .cast a e => do return .cast a (← cs.resolve e)
  | .abs e => do return .abs (← cs.resolve e)
  | .refused f => .error f

/-- Resolves an expression that may be left out. -/
def resolve? (cs : Columns) : Option RawExpr → Except Fault (Option Term)
  | .none => .ok .none
  | some e => do return some (← cs.resolve e)

/-- The columns of a result: a name and a term for each. -/
def resultColumns (cs : Columns) : List ResultColumn → Except Fault (List (String × Term))
  | [] => .ok []
  | .all :: rest => do
    if cs.qualifier.isNone then throw .noTables
    let own := cs.names.zipIdx.map fun (name, i) =>
      (name, Expr.column ⟨i, cs.affinities.getD i .none⟩)
    return own ++ (← cs.resultColumns rest)
  | .expr e title text :: rest => do
    let term ← cs.resolve e
    let name := match title, term with
      | some a, _ => a
      | .none, .column place => cs.nameAt place.index
      | .none, _ => text
    return (name, term) :: (← cs.resultColumns rest)

end Columns

/-! ## Queries -/

/-- A sort order over the cells of a source row. -/
structure SortPlan where
  term : Term
  descending : Bool

mutual

/-- Where the rows of a query come from. -/
inductive RowPlan where
  /-- A single row without cells. -/
  | single
  | table (name : String)
  | setting (cell : Cell)
  | query (q : QueryPlan)

/-- A query whose names are resolved. -/
inductive QueryPlan where
  | mk (source : RowPlan) (columns : List (String × Term)) (condition : Option Term)
    (order : List SortPlan) (limit offset : Option Term)

end

namespace QueryPlan

/-- The names of the result columns. -/
def names : QueryPlan → List String
  | mk _ columns _ _ _ _ => columns.map (·.1)

/-- The affinity of a term. -/
def affinityOf : Term → Affinity
  | .column place => place.affinity
  | .cast a _ => a
  | _ => .none

/-- The columns that a named query offers. -/
def offered (q : QueryPlan) (qualifier : String) : Columns :=
  match q with
  | mk _ columns _ _ _ _ =>
    ⟨some qualifier, columns.map (·.1), columns.map fun c => affinityOf c.2, .none⟩

/-- The setting that a table of its name shows. -/
def settingOf? (settings : List Setting) (table : String) : Option Setting :=
  settings.find? fun s => Text.asciiLower table == "pragma_" ++ s.name

/-- The expression that has a name among result columns. -/
def named? (name : String) : List ResultColumn → Option RawExpr
  | [] => none
  | .expr e (some a) _ :: rest =>
    if Text.sameIgnoringCase a name then some e else named? name rest
  | _ :: rest => named? name rest

/-- The term of a sort order: a column of the result by its position or by the name it was given,
or an expression over the source. -/
def sortTerm (cs : Columns) (results : List ResultColumn) (columns : List (String × Term))
    (s : SortTerm) : Except Fault SortPlan :=
  match s.expr with
  | .literal (.integer n) =>
    match columns[n.toInt.toNat - 1]? with
    | some c => .ok ⟨c.2, s.descending⟩
    | none => .ok ⟨.literal .null, s.descending⟩
  | .column n =>
    match n.table, named? n.name results with
    | none, some e => do return ⟨← cs.resolve e, s.descending⟩
    | _, _ => do return ⟨← cs.resolve s.expr, s.descending⟩
  | e => do return ⟨← cs.resolve e, s.descending⟩

/-- Prepares a query. A named query is resolved where it is used and sees those before it. -/
def ofSelect (scope : Scope) : (views : Views) → (q : Select) → Except Fault QueryPlan
  | views, q => do
    let (source, cs) ← match q.source with
      | none => pure (RowPlan.single, Columns.none)
      | some s =>
        let name := s.title.getD s.table
        fromViews views s.table name
    let columns ← cs.resultColumns q.columns
    let condition ← cs.resolve? q.condition
    let order ← q.order.mapM (sortTerm cs q.columns columns)
    let limit ← Columns.none.resolve? q.limit
    let offset ← Columns.none.resolve? q.offset
    return mk source columns condition order limit offset
termination_by views _ => (views.length, 1)
where
  /-- The rows and columns of a source: a named query, a table or a setting. -/
  fromViews (views : Views) (table name : String) : Except Fault (RowPlan × Columns) :=
    match views with
    | [] =>
      match scope.content.find? table, settingOf? scope.settings table with
      | some t, _ => .ok (.table t.name, Columns.ofTable t name)
      | none, some s => .ok (.setting s.cell, ⟨some name, [s.column], [.none], none⟩)
      | none, none => .error (.noSuchTable table)
    | (view, q) :: earlier =>
      if Text.sameIgnoringCase view table then do
        let plan ← ofSelect scope earlier q
        return (.query plan, plan.offered name)
      else fromViews earlier table name
  termination_by (views.length, 0)

end QueryPlan

/-! ## Changes -/

/-- Where the rows of an insert come from. -/
inductive InsertRows where
  | values (rows : List (List Term))
  | query (q : QueryPlan)
  | defaults

/-- A statement whose names are resolved. -/
inductive Plan where
  | select (q : QueryPlan)
  | insert (table : String) (columns : List Nat) (rows : InsertRows)
      (returning : List (String × Term))
  | update (table : String) (changes : List (Nat × Term)) (condition : Option Term)
      (returning : List (String × Term))
  | delete (table : String) (condition : Option Term) (returning : List (String × Term))
  /-- A change of the definitions, with the content after it. -/
  | define (content : Content)
  /-- Nothing is to be done. -/
  | keep
  /-- There was no statement. -/
  | nothing
  | begin
  | commit
  | rollback
  | setting (s : Setting)

namespace Plan

/-- The names of the columns of the rows that a statement gives. -/
def names : Plan → List String
  | select q => q.names
  | insert _ _ _ returning => returning.map (·.1)
  | update _ _ _ returning => returning.map (·.1)
  | delete _ _ returning => returning.map (·.1)
  | setting s => [s.column]
  | _ => []

/-- The place of a column that a change names. -/
def target (t : StoredTable) (column : String) (fault : Fault) : Except Fault Nat :=
  match t.definition.indexOf? column with
  | some i => .ok i
  | none =>
    match t.definition.idColumn? with
    | some i => if Text.asciiLower column ∈ Columns.idNames then .ok i else .error fault
    | none => .error fault

/-- Prepares the rows of an insert into `width` columns, or into all of a table. -/
def insertRows (scope : Scope) (views : Views) (t : StoredTable) (named : Bool) (width : Nat) :
    RowSource → Except Fault InsertRows
  | .defaults => .ok .defaults
  | .values rows => do
    let rows ← rows.mapM fun row => row.mapM Columns.none.resolve
    match rows.find? fun row => row.length != width with
    | some row => .error (wrongWidth row.length)
    | none => .ok (.values rows)
  | .query q => do
    let plan ← QueryPlan.ofSelect scope views q
    if plan.names.length ≠ width then .error (wrongWidth plan.names.length)
    else .ok (.query plan)
where
  /-- The fault of a row of another width. -/
  wrongWidth (n : Nat) : Fault :=
    if named then .valueCount n width else .tableWidth t.name width n

/-- Prepares an insert. -/
def ofInsert (scope : Scope) (views : Views) (table : String) (columns : List String)
    (rows : RowSource) (returning : List ResultColumn) : Except Fault Plan := do
  let t ← scope.content.table table
  let places ← if columns.isEmpty then pure (List.range t.definition.columns.length)
    else columns.mapM fun c => target t c (.noColumnNamed t.name c)
  let rows ← insertRows scope views t (!columns.isEmpty) places.length rows
  return .insert t.name places rows (← (Columns.ofTable t table).resultColumns returning)

/-- Whether two columns of a definition have one name. -/
def repeated? : List ColumnDef → Option String
  | [] => none
  | c :: rest =>
    if rest.any fun d => Text.sameIgnoringCase c.name d.name then some c.name else repeated? rest

/-- Prepares the creation of a table. -/
def ofCreate (content : Content) (table : String) (ifAbsent : Bool) (d : TableDef) :
    Except Fault Plan :=
  if (content.find? table).isSome then
    if ifAbsent then .ok .keep else .error (.tableExists table)
  else
    match repeated? d.columns with
    | some c => .error (.duplicateColumn c)
    | none => .ok (.define { content with tables := content.tables ++ [⟨table, d, []⟩] })

/-- The content with the definition and the rows of a table changed. -/
def redefine (content : Content) (t : StoredTable) (d : TableDef) (cells : List Cell → List Cell) :
    Plan :=
  .define (content.put
    { t with definition := d, rows := t.rows.map fun r => { r with cells := cells r.cells } })

/-- A list of names with one changed. -/
def renamed (old new : String) (names : List String) : List String :=
  names.map fun n => if Text.sameIgnoringCase n old then new else n

/-- Prepares the addition of a column, which holds its default in the rows that are there. -/
def ofAddColumn (content : Content) (table : String) (c : ColumnDef) : Except Fault Plan := do
  let t ← content.table table
  let d := t.definition
  if (d.indexOf? c.name).isSome then throw (.duplicateColumn c.name)
  let cell := match c.default with
    | some (.literal x) => x
    | _ => .null
  return redefine content t { d with columns := d.columns ++ [c] }
    (· ++ [Cell.store (.ofTypeName c.typeName) cell])

/-- Prepares the change of a column's name. -/
def ofRenameColumn (content : Content) (table column name : String) : Except Fault Plan := do
  let t ← content.table table
  let d := t.definition
  if (d.indexOf? column).isNone then throw (.noSuchColumn column none)
  if (d.indexOf? name).isSome then throw (.duplicateColumn name)
  return redefine content t
    { d with
      columns := d.columns.map fun c =>
        if Text.sameIgnoringCase c.name column then { c with name } else c
      primaryKey := renamed column name d.primaryKey
      uniques := d.uniques.map (renamed column name)
      references := d.references.map fun r => { r with columns := renamed column name r.columns } }
    id

/-- Prepares the removal of a column. -/
def ofDropColumn (content : Content) (table column : String) : Except Fault Plan := do
  let t ← content.table table
  let d := t.definition
  match d.indexOf? column with
  | none => throw (.noSuchColumn column none)
  | some i =>
    if d.columns.length ≤ 1 then throw (.lastColumn column)
    return redefine content t { d with columns := d.columns.eraseIdx i } (·.eraseIdx i)

/-- Prepares the change of a table's name. -/
def ofRenameTable (content : Content) (table name : String) : Except Fault Plan := do
  let t ← content.table table
  if (content.find? name).isSome then throw (.tableExists name)
  return .define {
    tables := content.tables.map fun u => if u.name = t.name then { u with name } else u
    sequences := content.sequences.map fun s => if s.1 = t.name then (name, s.2) else s }

/-- Prepares a statement. -/
def ofCommand (scope : Scope) : Command → Except Fault Plan
  | .select views q => do return select (← QueryPlan.ofSelect scope views.reverse q)
  | .insert views table columns rows returning =>
    ofInsert scope views.reverse table columns rows returning
  | .update table changes condition returning => do
    let t ← scope.content.table table
    let cs := Columns.ofTable t table
    let changes ← changes.mapM fun (c, e) => do
      return (← target t c (.noSuchColumn c none), ← cs.resolve e)
    return update t.name changes (← cs.resolve? condition) (← cs.resultColumns returning)
  | .delete table condition returning => do
    let t ← scope.content.table table
    let cs := Columns.ofTable t table
    return delete t.name (← cs.resolve? condition) (← cs.resultColumns returning)
  | .createTable table ifAbsent d => ofCreate scope.content table ifAbsent d
  | .dropTable table ifPresent =>
    match scope.content.find? table with
    | some t =>
      .ok (.define {
        tables := scope.content.tables.filter fun u => u.name != t.name
        sequences := scope.content.sequences.filter fun s => s.1 != t.name })
    | none => if ifPresent then .ok keep else .error (.noSuchTable table)
  | .addColumn table c => ofAddColumn scope.content table c
  | .renameColumn table column name => ofRenameColumn scope.content table column name
  | .dropColumn table column => ofDropColumn scope.content table column
  | .renameTable table name => ofRenameTable scope.content table name
  | .begin => .ok begin
  | .commit => .ok commit
  | .rollback => .ok rollback
  | .pragma name =>
    match scope.settings.find? fun s => Text.asciiLower name == s.name with
    | some s => .ok (setting s)
    | none => .ok keep
  | .nothing => .ok nothing

end Plan
end TableRecords.Embedded
