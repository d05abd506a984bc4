import TableRecords.Embedded.Change
import TableRecords.Embedded.Parser

/-!
# Connections

A connection runs statements on a database that other connections may use too. Outside of a
transaction a statement sees and changes the database itself. A transaction sees the database as
it was at its first read and keeps its changes to itself until it is committed; one connection at
a time may have changes, and it must have seen the latest state.

A statement that was prepared is kept and used again for the same text. It is prepared anew when
it runs, but until then it goes by what it was before: its column names, and whether it asks for
the right to write. A change of rows that does not get it has changed none.
-/

namespace TableRecords.Embedded

/-- A database that connections share. -/
structure Database where
  content : Content := {}
  /-- How often the content was changed. -/
  version : Nat := 0
  /-- The connection that has changes of its own. -/
  writer : Option Nat := none
  deriving Inhabited

/-- What a transaction saw at its first read, with its changes. -/
structure Snapshot where
  content : Content
  version : Nat
  deriving Inhabited

/-- An open transaction. -/
structure Transaction where
  snapshot : Option Snapshot := none
  /-- Whether it has the right to write. -/
  writing : Bool := false
  /-- Whether the snapshot has changes. -/
  changed : Bool := false
  deriving Inhabited

/-- A statement that is ready to run. -/
structure Prepared where
  /-- The text without blanks around it. -/
  text : String
  /-- The column names it goes by. -/
  names : List String
  effect : Effect

/-- A connection to a database. -/
structure Connection where
  /-- The number of the database. -/
  database : Nat
  settings : List Setting
  /-- Whether it refuses to write. -/
  queryOnly : Bool
  transaction : Option Transaction := none
  /-- How many rows the last change of rows changed. -/
  changes : Nat := 0
  /-- The id of the last row that was inserted. -/
  lastId : Int64 := 0
  /-- The prepared statements that are kept, the last used first. -/
  kept : List Prepared := []

/-- A connection with its database. -/
structure Link where
  database : Database
  connection : Connection

/-- What a connection does; `self` is its number. -/
abbrev Run (α : Type) : Type := ExceptT Fault (StateM Link) α

namespace Link

/-- The content that the connection sees. -/
def content (l : Link) : Content :=
  match l.connection.transaction with
  | some ⟨some s, _, _⟩ => s.content
  | _ => l.database.content

/-- What names can speak of. -/
def scope (l : Link) : Scope := ⟨l.content, l.connection.settings⟩

/-- The link with the connection changed. -/
def onConnection (f : Connection → Connection) (l : Link) : Link :=
  { l with connection := f l.connection }

/-- The current state of the database as a snapshot. -/
def current (l : Link) : Snapshot := ⟨l.database.content, l.database.version⟩

end Link

namespace Run

/-- Fails if a condition does not hold. -/
def need (p : Bool) (f : Fault) : Run Unit := if p then pure () else throw f

/-- Fixes what a transaction sees, if that is not done yet. -/
def beginRead : Run Unit := modify fun l => l.onConnection fun c =>
  { c with transaction := c.transaction.map fun t => { t with snapshot := t.snapshot <|> some l.current } }

/-- Gets the right to write. -/
def beginWrite (self : Nat) : Run Unit := do
  let l ← get
  need (!l.connection.queryOnly) .readOnly
  need (l.database.writer.all (· == self)) .locked
  match l.connection.transaction with
  | none => return
  | some t =>
    if t.writing then return
    let s := t.snapshot.getD l.current
    need (s.version == l.database.version) .locked
    set (Link.onConnection (fun c => { c with transaction := some { snapshot := s, writing := true } })
      { l with database := { l.database with writer := some self } })

/-- Puts a new content in place: in the transaction, or else in the database, where references
that wait for the end of the transaction are checked. -/
def publish (content : Content) : Run Unit := do
  let l ← get
  match l.connection.transaction with
  | some t =>
    let s := { t.snapshot.getD l.current with content }
    set (l.onConnection fun c =>
      { c with transaction := some { t with snapshot := some s, changed := true } })
  | none =>
    need (content.sound true) .foreignKey
    set { l with database := { l.database with content, version := l.database.version + 1 } }

/-- Opens a transaction. -/
def begin : Run Unit := do
  need (← get).connection.transaction.isNone .nestedTransaction
  modify (Link.onConnection fun c => { c with transaction := some {} })

/-- Ends a transaction and gives up the right to write. -/
def leave : Run Unit := modify fun l =>
  let writing := l.connection.transaction.any (·.writing)
  Link.onConnection (fun c => { c with transaction := none })
    { l with database :=
        { l.database with writer := if writing then none else l.database.writer } }

/-- Commits a transaction. It stays open if a reference does not resolve. -/
def commit : Run Unit := do
  let l ← get
  match l.connection.transaction with
  | none => throw .nothingToCommit
  | some ⟨some s, _, true⟩ =>
    need (s.content.sound true) .foreignKey
    leave
    modify fun l => { l with
      database := { l.database with content := s.content, version := l.database.version + 1 } }
  | some _ => leave

/-- Undoes a transaction. -/
def rollback : Run Unit := do
  need (← get).connection.transaction.isSome .nothingToRollback
  leave

/-- Notes how many rows were changed. -/
def countChanges (n : Nat) : Run Unit :=
  modify (Link.onConnection fun c => { c with changes := n })

/-- Changes rows, and notes how many. A change that fails has changed none, but the id of a row
that it inserted stays noted. The rows that it gives can be read before its end is refused. A
change of no row leaves the database as it was. -/
def change (self : Nat) (plan : Plan) (args : List Cell) : Run Rows := do
  countChanges 0
  beginWrite self
  let (r, id) := (plan.change (← get).content args).run.run none
  modify (Link.onConnection fun c => { c with lastId := id.getD c.lastId })
  let (changed, rows) ← liftM r
  let finish : Run Rows := do
    if changed.count ≠ 0 then publish changed.content
    countChanges changed.count
    return []
  return rows.map .ok ++ (← tryCatch finish fun f => return [.error f])

/-- Runs a plan and gives its rows. -/
def plan (self : Nat) (p : Plan) (args : List Cell) : Run Rows := do
  match p with
  | .select q =>
    if q.readsTable then beginRead
    return q.rows (← get).content args
  | .setting s => return [.ok [s.cell]]
  | .define content =>
    beginWrite self
    publish content
    return []
  | .keep => do beginRead; return []
  | .nothing => throw .noStatement
  | .begin => do begin; return []
  | .commit => do commit; return []
  | .rollback => do rollback; return []
  | p => change self p args

/-- Undoes a transaction, if one is open. -/
def undo : Run Unit := do if (← get).connection.transaction.isSome then rollback

end Run

/-! ## Prepared statements -/

/-- What is kept of a text with a plan. -/
def Plan.prepared (text : String) (p : Plan) : Prepared := ⟨text, p.names, p.effect⟩

namespace Prepared

/-- Checks that a statement has as many parameters as arguments. -/
def checkParams (p : Prepared) (argCount : Nat) : Except Fault Unit :=
  let needed := Command.paramCount (Token.scan p.text)
  if argCount = needed then .ok ()
  else .error (.paramCount (min argCount (needed + 1)) needed)

end Prepared

namespace Connection

/-- How many prepared statements are kept. -/
def keptMax : Nat := 16

/-- Keeps a prepared statement, and drops the one not used for longest. -/
def keep (p : Prepared) (c : Connection) : Connection :=
  { c with kept := (p :: c.kept.filter fun k => k.text != p.text).take keptMax }

/-- Takes the statement of a text from those that are kept. -/
def drop (text : String) (c : Connection) : Connection :=
  { c with kept := c.kept.filter fun k => k.text != text }

end Connection

namespace Run

/-- The plan of a text. -/
def planOf (text : String) : Run Plan := do
  let command ← liftM (Command.parse text)
  liftM (Plan.ofCommand (← get).scope command)

/-- Prepares a statement, or takes it from those that are kept. -/
def prepare (sql : String) : Run Prepared := do
  let text := Text.trim sql
  match (← get).connection.kept.find? (·.text == text) with
  | some p =>
    modify (Link.onConnection (Connection.drop text))
    return p
  | none => return (← planOf text).prepared text

/-- The plan by which a prepared statement runs. It gets the right to write first, if it asks for
it. -/
def ready (self : Nat) (p : Prepared) : Run Plan := do
  if p.effect = .rows then countChanges 0
  if p.effect ≠ .none then beginWrite self
  planOf p.text

end Run
end TableRecords.Embedded
