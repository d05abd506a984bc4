import TableRecords.Embedded.Fault
import TableRecords.Embedded.Syntax
import TableRecords.Embedded.Token

/-!
# Reading statements

`Command.parse` reads the first statement of a text. It goes forward over the tokens and never
back, so the token it stops at is the first one with which no statement goes on.
-/

namespace TableRecords.Embedded

/-- Why tokens are no statement: a token that cannot stand there, or too few of them. -/
inductive Stop where
  | at (t : Token)
  | atEnd

/-- A reader of tokens. -/
abbrev Parse (α : Type) : Type := StateT (List Token) (Except Stop) α

namespace Parse

/-- Words that are no names unless they are quoted. -/
def reserved : List String :=
  ["add", "all", "alter", "and", "as", "autoincrement", "between", "case", "check", "collate",
    "commit", "constraint", "create", "default", "deferrable", "delete", "distinct", "drop",
    "else", "escape", "except", "exists", "foreign", "from", "group", "having", "in", "index",
    "insert", "intersect", "into", "is", "isnull", "join", "limit", "not", "nothing", "notnull",
    "null", "on", "or", "order", "primary", "references", "returning", "select", "set", "table",
    "then", "to", "transaction", "union", "unique", "update", "using", "values", "when", "where"]

/-- Stops at the next token. -/
def fail {α : Type} : Parse α := fun ts =>
  match ts with
  | [] => .error .atEnd
  | t :: _ => .error (.at t)

/-- Whether the next token is a word; letter case does not count. -/
def isWord (word : String) (ts : List Token) : Bool :=
  match ts with
  | ⟨.word s, _, _⟩ :: _ => Text.asciiLower s == word
  | _ => false

/-- Whether the next token is a symbol. -/
def isSymbol (symbol : String) (ts : List Token) : Bool :=
  match ts with
  | ⟨.symbol s, _, _⟩ :: _ => s == symbol
  | _ => false

/-- Passes a word or symbol if `test` holds of what comes, and tells whether it did. -/
def passIf (test : List Token → Bool) : Parse Bool := fun ts =>
  if test ts then .ok (true, ts.tail) else .ok (false, ts)

/-- Passes a word if it comes next. -/
def word? (word : String) : Parse Bool := passIf (isWord word)

/-- Passes a symbol if it comes next. -/
def symbol? (symbol : String) : Parse Bool := passIf (isSymbol symbol)

/-- Passes a word. -/
def word (w : String) : Parse Unit := do if !(← word? w) then fail

/-- Passes a symbol. -/
def symbol (s : String) : Parse Unit := do if !(← symbol? s) then fail

/-- Passes several words. -/
def words (ws : List String) : Parse Unit := ws.forM word

/-- A name. -/
def name : Parse String := fun ts =>
  match ts with
  | ⟨.word s, _, _⟩ :: rest =>
    if Text.asciiLower s ∈ reserved then fail ts else .ok (s, rest)
  | ⟨.name s, _, _⟩ :: rest => .ok (s, rest)
  | ⟨.quoted s, _, _⟩ :: rest => .ok (s, rest)
  | ⟨.string s, _, _⟩ :: rest => .ok (s, rest)
  | ts => fail ts

/-- Whether a name comes next, in quotes or not. -/
def nameComes (ts : List Token) : Bool :=
  match name ts with
  | .ok _ => true
  | .error _ => false

/-- Items separated by commas. -/
def commaSeparated {α : Type} (item : Parse α) : (fuel : Nat) → Parse (List α)
  | 0 => fail
  | fuel + 1 => do
    let a ← item
    if ← symbol? "," then return a :: (← commaSeparated item fuel) else return [a]

/-- How many tokens are left. -/
def left : Parse Nat := fun ts => .ok (ts.length, ts)

/-- Items separated by commas. -/
def list {α : Type} (item : Parse α) : Parse (List α) := do commaSeparated item (← left)

/-- Names between parentheses. -/
def nameList : Parse (List String) := do
  symbol "("
  let names ← list name
  symbol ")"
  return names

/-! ## Expressions -/

/-- The rows of symbols that compare, those that bind less first. -/
def comparisons : List (List (String × Comparison)) :=
  [[("=", .eq), ("==", .eq), ("<>", .ne), ("!=", .ne)],
    [("<", .lt), ("<=", .le), (">", .gt), (">=", .ge)]]

/-- Passes one of some symbols and gives what stands beside it. -/
def oneOf {α : Type} (table : List (String × α)) : Parse (Option α) := fun ts =>
  match table.find? fun entry => isSymbol entry.1 ts with
  | some entry => .ok (some entry.2, ts.tail)
  | none => .ok (none, ts)

/-- A type name: words and perhaps a size between parentheses. -/
def typeName : (fuel : Nat) → Parse String
  | 0 => fail
  | fuel + 1 => do
    let ts ← get
    if nameComes ts then
      let first ← name
      let more ← typeName fuel
      return if more.isEmpty then first else first ++ " " ++ more
    else return ""

/-- The size behind a type name. -/
def typeSize : Parse Unit := do
  if ← symbol? "(" then
    let size : Parse Unit := do
      let _ ← symbol? "-"
      match ← get with
      | ⟨.integer _, _, _⟩ :: rest => set rest
      | ⟨.real _ _, _, _⟩ :: rest => set rest
      | _ => fail
    let _ ← list size
    symbol ")"

/-- The levels of an expression, those that bind less first. -/
inductive Level where
  | disjunction
  | conjunction
  | negation
  | equality
  | order
  | sign
  | atom
  deriving DecidableEq, Repr

/-- A function with the byte at which its name stands. -/
def call (name : String) (args : List RawExpr) (offset : Nat) : RawExpr :=
  if Text.asciiLower name = "abs" then
    match args with
    | [e] => .abs e
    | _ => .refused (.argumentCount name offset)
  else .refused (.noSuchFunction name offset)

mutual

/-- An expression of a level. -/
def expression : (fuel : Nat) → Level → Parse RawExpr
  | 0, _ => fail
  | fuel + 1, .disjunction => do
    operands fuel .disjunction (← expression fuel .conjunction)
  | fuel + 1, .conjunction => do
    operands fuel .conjunction (← expression fuel .negation)
  | fuel + 1, .negation => do
    if ← word? "not" then return .not (← expression fuel .negation)
    else expression fuel .equality
  | fuel + 1, .equality => do operands fuel .equality (← expression fuel .order)
  | fuel + 1, .order => do operands fuel .order (← expression fuel .sign)
  | fuel + 1, .sign => do
    if ← symbol? "-" then
      match ← get with
      | ⟨.integer n, _, _⟩ :: rest =>
        if n = 0x8000000000000000 then
          set rest
          return .literal (.integer Int64.minValue)
        else return .negate (← expression fuel .sign)
      | _ => return .negate (← expression fuel .sign)
    else if ← symbol? "+" then expression fuel .sign
    else expression fuel .atom
  | fuel + 1, .atom => do
    match ← get with
    | ⟨.integer n, _, _⟩ :: rest =>
      set rest
      return .literal
        (if n < 0x8000000000000000 then .integer (Int64.ofNat n) else .real (Float.ofNat n))
    | ⟨.real n e, _, _⟩ :: rest =>
      set rest
      return .literal (.real (Cell.Numeral.toReal ⟨false, n, e, false, []⟩))
    | ⟨.string s, _, _⟩ :: rest =>
      set rest
      return .literal (.ofString s)
    | ⟨.blob b, _, _⟩ :: rest =>
      set rest
      return .literal (.blob b)
    | ⟨.param n, _, _⟩ :: rest =>
      set rest
      return .param n
    | ⟨.symbol "(", _, _⟩ :: rest =>
      set rest
      let e ← expression fuel .disjunction
      symbol ")"
      return e
    | ts =>
      if ← word? "null" then return .literal .null
      else if ← word? "cast" then
        symbol "("
        let e ← expression fuel .disjunction
        word "as"
        let type ← typeName fuel
        typeSize
        symbol ")"
        return .cast (.ofTypeName type) e
      else named fuel ts

/-- A column, or a function with its arguments. -/
def named : (fuel : Nat) → (ts : List Token) → Parse RawExpr
  | 0, _ => fail
  | fuel + 1, ts => do
    let offset := match ts with
      | t :: _ => t.start
      | [] => 0
    let quoted := match ts with
      | ⟨.quoted _, _, _⟩ :: _ => true
      | _ => false
    let first ← name
    if ← symbol? "." then return .column ⟨some first, ← name, false, offset⟩
    else if isSymbol "(" (← get) then
      symbol "("
      return call first (← arguments fuel) offset
    else return .column ⟨none, first, quoted, offset⟩

/-- The arguments of a function up to the closing parenthesis. -/
def arguments : (fuel : Nat) → Parse (List RawExpr)
  | 0 => fail
  | fuel + 1 => do
    if ← symbol? ")" then return []
    let e ← expression fuel .disjunction
    if ← symbol? "," then return e :: (← arguments fuel)
    symbol ")"
    return [e]

/-- The operators of a level behind its first operand. -/
def operands : (fuel : Nat) → Level → RawExpr → Parse RawExpr
  | 0, _, _ => fail
  | fuel + 1, .disjunction, a => do
    if ← word? "or" then operands fuel .disjunction (.or a (← expression fuel .conjunction))
    else return a
  | fuel + 1, .conjunction, a => do
    if ← word? "and" then operands fuel .conjunction (.and a (← expression fuel .negation))
    else return a
  | fuel + 1, .equality, a => do
    if ← word? "isnull" then operands fuel .equality (.isNull a)
    else if ← word? "notnull" then operands fuel .equality (.not (.isNull a))
    else if ← word? "is" then
      let negated ← word? "not"
      word "null"
      operands fuel .equality (if negated then .not (.isNull a) else .isNull a)
    else
      match ← oneOf (comparisons.headD []) with
      | some op => operands fuel .equality (.compare op a (← expression fuel .order))
      | none => return a
  | fuel + 1, .order, a => do
    match ← oneOf (comparisons.getLastD []) with
    | some op => operands fuel .order (.compare op a (← expression fuel .sign))
    | none => return a
  | _ + 1, _, a => return a

end

/-- An expression. -/
def expr : Parse RawExpr := do expression (12 * ((← left) + 1)) .disjunction

/-- An expression with its text in `sql`. -/
def exprWithText (sql : String) : Parse (RawExpr × String) := do
  let before ← get
  let e ← expr
  let after ← get
  let used := before.take (before.length - after.length)
  return (e, slice sql ((used.head?.map (·.start)).getD 0) ((used.getLast?.map (·.stop)).getD 0))

/-! ## Queries -/

/-- A result column. -/
def resultColumn (sql : String) : Parse ResultColumn := do
  if ← symbol? "*" then return .all
  let (e, text) ← exprWithText sql
  if ← word? "as" then return .expr e (some (← name)) text
  if nameComes (← get) then return .expr e (some (← name)) text
  return .expr e none text

/-- What follows a word, if the word comes. -/
def after? {α : Type} (w : String) (p : Parse α) : Parse (Option α) := do
  if ← word? w then return some (← p) else return none

/-- A sort order. -/
def sortTerm : Parse SortTerm := do
  let e ← expr
  if ← word? "desc" then return ⟨e, true⟩
  let _ ← word? "asc"
  return ⟨e, false⟩

/-- The source of a query. -/
def source : Parse Source := do
  let table ← name
  if ← word? "as" then return ⟨table, some (← name)⟩
  if nameComes (← get) then return ⟨table, some (← name)⟩
  return ⟨table, none⟩

/-- A query behind its first word. -/
def select (sql : String) : Parse Select := do
  let columns ← list (resultColumn sql)
  let source ← after? "from" source
  let condition ← after? "where" expr
  let order ← after? "order" do
    word "by"
    list sortTerm
  let limit ← after? "limit" expr
  let offset ← if limit.isSome then after? "offset" expr else pure none
  return ⟨columns, source, condition, order.getD [], limit, offset⟩

/-- A named query. -/
def view (sql : String) : Parse (String × Select) := do
  let n ← name
  words ["as"]
  symbol "("
  word "select"
  let q ← select sql
  symbol ")"
  return (n, q)

/-! ## Changes -/

/-- The columns that a change returns. -/
def returning (sql : String) : Parse (List ResultColumn) := do
  return (← after? "returning" (list (resultColumn sql))).getD []

/-- The row of an insert. -/
def row : Parse (List RawExpr) := do
  symbol "("
  let es ← list expr
  symbol ")"
  return es

/-- An insert behind its first word. -/
def insert (sql : String) (views : Views) : Parse Command := do
  word "into"
  let table ← name
  let columns ← if isSymbol "(" (← get) then nameList else pure []
  let rows ←
    if ← word? "values" then pure (RowSource.values (← list row))
    else if ← word? "default" then do
      word "values"
      pure .defaults
    else do
      word "select"
      pure (.query (← select sql))
  return .insert views table columns rows (← returning sql)

/-- An assignment. -/
def assignment : Parse (String × RawExpr) := do
  let column ← name
  symbol "="
  return (column, ← expr)

/-- An update behind its first word. -/
def update (sql : String) : Parse Command := do
  let table ← name
  word "set"
  let changes ← list assignment
  let condition ← after? "where" expr
  return .update table changes condition (← returning sql)

/-- A delete behind its first word. -/
def delete (sql : String) : Parse Command := do
  word "from"
  let table ← name
  let condition ← after? "where" expr
  return .delete table condition (← returning sql)

/-! ## Definitions -/

/-- A table that a definition is read into. -/
abbrev Draft : Type := TableDef

/-- What a reference says of its checks. -/
def referenceClauses : (fuel : Nat) → Parse Bool
  | 0 => fail
  | fuel + 1 => do
    if ← word? "on" then
      if !(← word? "delete") then word "update"
      if ← word? "no" then word "action" else words ["restrict"]
      referenceClauses fuel
    else
      let ts ← get
      if isWord "deferrable" ts ∨ (isWord "not" ts ∧ isWord "deferrable" ts.tail) then
        let never ← word? "not"
        word "deferrable"
        let deferred ← if ← word? "initially" then do
            if ← word? "deferred" then pure true
            else do
              word "immediate"
              pure false
          else pure false
        return deferred && !never
      else return false

/-- A reference behind its word. -/
def reference (columns : List String) : Parse Reference := do
  let table ← name
  let keys ← if isSymbol "(" (← get) then nameList else pure []
  return ⟨columns, table, keys, ← referenceClauses (← left)⟩

/-- A default value behind its word. -/
def defaultValue : Parse RawExpr := do
  if isSymbol "(" (← get) then
    symbol "("
    let e ← expr
    symbol ")"
    return e
  else expression (12 * ((← left) + 1)) .sign

/-- A check between parentheses, with its text. -/
def check (sql : String) : Parse Check := do
  symbol "("
  let (e, text) ← exprWithText sql
  symbol ")"
  return ⟨e, text⟩

/-- The constraints of a column. -/
def columnConstraints (sql : String) : (fuel : Nat) → ColumnDef → Draft →
    Parse (ColumnDef × Draft)
  | 0, _, _ => fail
  | fuel + 1, c, d => do
    let go := columnConstraints sql fuel
    if ← word? "constraint" then
      let _ ← name
      go c d
    else if ← word? "primary" then
      word "key"
      if !(← word? "asc") then
        let _ ← word? "desc"
      let auto ← word? "autoincrement"
      go c { d with
        primaryKey := [c.name], autoincrement := d.autoincrement || auto
        uniques := d.uniques ++ [[c.name]] }
    else if isWord "not" (← get) then
      words ["not", "null"]
      go { c with notNull := true } d
    else if ← word? "null" then go c d
    else if ← word? "unique" then go c { d with uniques := d.uniques ++ [[c.name]] }
    else if ← word? "check" then
      let k ← check sql
      go c { d with checks := d.checks ++ [k] }
    else if ← word? "default" then go { c with default := some (← defaultValue) } d
    else if ← word? "references" then
      let r ← reference [c.name]
      go c { d with references := d.references ++ [r] }
    else return (c, d)

/-- The declaration of a column. -/
def columnDef (sql : String) (d : Draft) : Parse (ColumnDef × Draft) := do
  let n ← name
  let type ← typeName (← left)
  typeSize
  columnConstraints sql (← left) { name := n, typeName := type } d

/-- A constraint of a table, if one comes. -/
def tableConstraint? (sql : String) (d : Draft) : Parse (Option Draft) := do
  if ← word? "constraint" then
    let _ ← name
  if ← word? "primary" then
    word "key"
    let names ← nameList
    return some { d with primaryKey := names, uniques := d.uniques ++ [names] }
  else if ← word? "unique" then
    let names ← nameList
    return some { d with uniques := d.uniques ++ [names] }
  else if ← word? "check" then
    let k ← check sql
    return some { d with checks := d.checks ++ [k] }
  else if ← word? "foreign" then
    word "key"
    let names ← nameList
    word "references"
    let r ← reference names
    return some { d with references := d.references ++ [r] }
  else return none

/-- The columns and constraints of a table. -/
def tableBody (sql : String) : (fuel : Nat) → Draft → Parse Draft
  | 0, _ => fail
  | fuel + 1, d => do
    let constraint ← if d.columns.isEmpty then pure none else tableConstraint? sql d
    let d ← match constraint with
      | some d => pure d
      | none => do
        let (c, d) ← columnDef sql d
        pure { d with columns := d.columns ++ [c] }
    if ← symbol? "," then tableBody sql fuel d
    else
      symbol ")"
      return d

/-- A table definition behind its first word. -/
def create (sql : String) : Parse Command := do
  word "table"
  let ifAbsent ← word? "if"
  if ifAbsent then words ["not", "exists"]
  let table ← name
  symbol "("
  return .createTable table ifAbsent (← tableBody sql (← left) ⟨[], [], false, [], [], []⟩)

/-- The removal of a table behind its first word. -/
def drop : Parse Command := do
  word "table"
  let ifPresent ← word? "if"
  if ifPresent then word "exists"
  return .dropTable (← name) ifPresent

/-- A change of a table definition behind its first word. -/
def alter (sql : String) : Parse Command := do
  word "table"
  let table ← name
  if ← word? "rename" then
    if ← word? "to" then return .renameTable table (← name)
    let _ ← word? "column"
    let column ← name
    word "to"
    return .renameColumn table column (← name)
  else if ← word? "drop" then
    let _ ← word? "column"
    return .dropColumn table (← name)
  else
    word "add"
    let _ ← word? "column"
    let (c, _) ← columnDef sql ⟨[], [], false, [], [], []⟩
    return .addColumn table c

/-! ## Statements -/

/-- A statement. -/
def command (sql : String) : Parse Command := do
  if ← word? "select" then return .select [] (← select sql)
  else if ← word? "with" then
    let views ← list (view sql)
    if ← word? "select" then return .select views (← select sql)
    word "insert"
    insert sql views
  else if ← word? "insert" then insert sql []
  else if ← word? "update" then update sql
  else if ← word? "delete" then delete sql
  else if ← word? "create" then create sql
  else if ← word? "drop" then drop
  else if ← word? "alter" then alter sql
  else if ← word? "begin" then
    let _ ← word? "deferred"
    let _ ← word? "transaction"
    return .begin
  else if (← word? "commit") || (← word? "end") then
    let _ ← word? "transaction"
    return .commit
  else if ← word? "rollback" then
    let _ ← word? "transaction"
    return .rollback
  else if ← word? "pragma" then return .pragma (← name)
  else fail

/-- A statement up to its end. -/
def statement (sql : String) : Parse Command := do
  let ts ← get
  if ts.isEmpty ∨ isSymbol ";" ts then
    let _ ← symbol? ";"
    return .nothing
  let c ← command sql
  if !(← get).isEmpty then symbol ";"
  return c

end Parse

/-- The fault of tokens that are no statement. -/
def Stop.toFault (sql : String) : Stop → Fault
  | .atEnd => .incomplete
  | .at t =>
    let near := slice sql t.start t.stop
    if t.lexeme = .illegal then .illegal near t.start else .unexpected near t.start

namespace Command

/-- The first statement of a text. -/
def parse (sql : String) : Except Fault Command :=
  match (Parse.statement sql).run (Token.scan sql) with
  | .ok (c, _) => .ok c
  | .error stop => .error (stop.toFault sql)

/-- All statements of a text. -/
def parseAll (sql : String) : (fuel : Nat) → List Token → Except Fault (List Command)
  | 0, _ => .ok []
  | _, [] => .ok []
  | fuel + 1, ts =>
    match (Parse.statement sql).run ts with
    | .ok (c, ts) => do return c :: (← parseAll sql fuel ts)
    | .error stop => .error (stop.toFault sql)

/-- How many parameters a statement has. -/
def paramCount (ts : List Token) : Nat :=
  (ts.takeWhile fun t => t.lexeme != .symbol ";").foldl
    (fun n t => match t.lexeme with
      | .param k => max n k
      | _ => n) 0

end Command
end TableRecords.Embedded
