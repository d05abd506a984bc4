import TableRecords.Embedded.Connection
import TableRecords.Embedded.Store

/-!
# The engine

A driver that runs the statements of `Syntax` on databases that connections share, and the ways to
open adapters on it: on a private database in memory, or on one shared file.

What is proved of adapters is proved of every driver that keeps what is assumed of it. This is one of
them.
-/

namespace TableRecords.Embedded

/-- The failure that a fault is told as. -/
def Fault.toDriver (f : Fault) (text : String) : DriverError :=
  match f.code with
  | some code => .engine code text
  | none => .other text

/-! ## Calls on a connection -/

/-- Rows that are read: those still to come, once their statement runs. -/
structure Running where
  connection : Nat
  statement : Prepared
  args : List Cell
  rest : Option Rows := none

namespace Rows

/-- The answer to who asks for a row, and the rows behind it. A fault ends them. -/
def answer : Rows → Except DriverError (Option (List Cell)) × Rows
  | [] => (.ok none, [])
  | .ok cells :: rest => (.ok (some cells), rest)
  | .error f :: _ => (.error (f.toDriver f.running), [])

end Rows

namespace Link

/-- Runs something on a link; its fault is told as a failure with the given text. -/
def attempt {α : Type} (text : Fault → String) (r : Run α) (l : Link) :
    Except DriverError α × Link :=
  let (r, l) := r.run l
  (r.mapError fun f => f.toDriver (text f), l)

/-- Prepares a statement, or takes it from those that are kept. -/
def prepare (self : Nat) (sql : String) (l : Link) :
    Except DriverError (Nat × Prepared) × Link :=
  let (r, l) := l.attempt (·.preparing (Text.trim sql)) (Run.prepare sql)
  (r.map (self, ·), l)

/-- The link with a prepared statement kept. -/
def keep (p : Prepared) (l : Link) : Link := l.onConnection (Connection.keep p)

/-- Runs a prepared statement. It goes by the plan that it ran by from here on. -/
def step (self : Nat) (p : Prepared) (args : List Cell) (l : Link) :
    Except Fault Rows × Prepared × Link :=
  match (Run.ready self p).run l with
  | (.error f, l) => (.error f, p, l)
  | (.ok plan, l) =>
    let (r, l) := (Run.plan self plan (args.map Cell.taken)).run l
    (r, plan.prepared p.text, l)

/-- Runs a prepared statement that gives no rows, and keeps it. -/
def execute (self : Nat) (p : Prepared) (args : List Cell) (l : Link) :
    Except DriverError Nat × Link :=
  match p.checkParams args.length with
  | .error f => (.error (f.toDriver f.running), l.keep p)
  | .ok () =>
    match step self p args l with
    | (.ok [], p, l) => (.ok l.connection.changes, l.keep p)
    | (.ok (.ok _ :: _), p, l) => (.error .returnedRows, l.keep p)
    | (.ok (.error f :: _), p, l) | (.error f, p, l) => (.error (f.toDriver f.running), l.keep p)

/-- Binds the arguments of a prepared statement, which is kept if they do not fit. -/
def query (self : Nat) (p : Prepared) (args : List Cell) (l : Link) :
    Except DriverError Running × Link :=
  match p.checkParams args.length with
  | .error f => (.error (f.toDriver f.running), l.keep p)
  | .ok () => (.ok ⟨self, p, args, none⟩, l)

/-- The rows to come of a statement that is asked for the first of them. -/
def given (self : Nat) (p : Prepared) (args : List Cell) (l : Link) : Rows :=
  match (step self p args l).1 with
  | .ok rows => rows
  | .error f => [.error f]

/-- The next row. A statement runs when its first row is asked for. -/
def next (r : Running) (l : Link) :
    Except DriverError (Option (List Cell)) × Running × Link :=
  match r.rest with
  | some rows =>
    let (answer, rest) := rows.answer
    (answer, { r with rest := some rest }, l)
  | none =>
    let (_, statement, after) := step r.connection r.statement r.args l
    let (answer, rest) := (given r.connection r.statement r.args l).answer
    (answer, { r with statement, rest := some rest }, after)

/-- The rows that are still to come. -/
def coming (r : Running) (l : Link) : Rows :=
  r.rest.getD (given r.connection r.statement r.args l)

end Link

/-! ## The driver -/

/-- Databases and connections, each known by its number. -/
structure World where
  databases : List Database := []
  connections : List Connection := []
  /-- The number of the database in the shared file. -/
  file : Option Nat := none
  /-- Whether the shared file holds something else than a database. -/
  spoiled : Bool := false

namespace World

/-- A connection with its database. -/
def link? (w : World) (i : Nat) : Option Link := do
  let connection ← w.connections[i]?
  return ⟨← w.databases[connection.database]?, connection⟩

/-- The world with a connection and its database changed. -/
def withLink (w : World) (i : Nat) (l : Link) : World :=
  { w with
    databases := w.databases.set l.connection.database l.database
    connections := w.connections.set i l.connection }

/-- Does something on a connection, or fails where there is none. -/
def on {α : Type} (w : World) (i : Nat) (f : Link → Except DriverError α × Link) :
    Except DriverError α × World :=
  match w.link? i with
  | some l => let (r, l) := f l; (r, w.withLink i l)
  | none => (.error (.other "no such connection"), w)

/-- Asks for the next row on a connection, or fails and gives none where that is not there. -/
def next (w : World) (r : Running) : Except DriverError (Option (List Cell)) × Running × World :=
  match w.link? r.connection with
  | some l => let (answer, left, l) := l.next r; (answer, left, w.withLink r.connection l)
  | none => (.error (.other "no such connection"), { r with rest := some [] }, w)

/-- Changes a connection, if it is there. -/
def modify (w : World) (i : Nat) (f : Link → Link) : World :=
  match w.link? i with
  | some l => w.withLink i (f l)
  | none => w

end World

/-- The engine as a driver. -/
@[reducible] def engine : Driver where
  World := World
  Connection := Nat
  Statement := Nat × Prepared
  Rows := Running
  prepare i sql w := w.on i (Link.prepare i sql)
  names statement := statement.2.names
  execute statement args w := w.on statement.1 (Link.execute statement.1 statement.2 args)
  lastId i w := (w.link? i).elim 0 (·.connection.lastId)
  query statement args w := w.on statement.1 (Link.query statement.1 statement.2 args)
  next r w := World.next w r
  size r w := (w.link? r.connection).elim 0 fun l => (l.coming r).length
  release r w := w.modify r.connection (Link.keep r.statement)
  begin i w := w.on i (Link.attempt Fault.running Run.begin)
  commit i w := w.on i (Link.attempt Fault.running Run.commit)
  abandon i w := w.modify i fun l => (Run.undo.run l).2
  close i w := (.ok (), w.modify i fun l => (Run.undo.run l).2)

/-! ## Opening -/

namespace World

/-- The settings of a connection. A lock timeout beyond 31 bits counts as none. -/
def settings (ahead queryOnly : Bool) (synchronous : Int64) (lockTimeout : Nat) :
    List Setting :=
  let timeout := if lockTimeout < 0x80000000 then lockTimeout else 0
  [⟨"journal_mode", "journal_mode", .ofString (if ahead then "wal" else "memory")⟩,
    ⟨"synchronous", "synchronous", .integer synchronous⟩,
    ⟨"foreign_keys", "foreign_keys", .integer 1⟩,
    ⟨"busy_timeout", "timeout", .integer (Int64.ofNat timeout)⟩,
    ⟨"cache_size", "cache_size", .integer (-8000)⟩,
    ⟨"temp_store", "temp_store", .integer 2⟩,
    ⟨"query_only", "query_only", .ofBool queryOnly⟩]

/-- The world with a connection added, and its number. -/
def connect (w : World) (database : Nat) (ahead queryOnly : Bool) (lockTimeout : Nat) :
    World × Nat :=
  let synchronous := if queryOnly then 2 else 1
  let c : Connection :=
    { database, settings := settings ahead queryOnly synchronous lockTimeout, queryOnly }
  ({ w with connections := w.connections ++ [c] }, w.connections.length)

/-- The world with connections added, and their numbers. -/
def connectAll (w : World) (database : Nat) (ahead queryOnly : Bool) (lockTimeout : Nat) :
    Nat → World × List Nat
  | 0 => (w, [])
  | n + 1 =>
    let (w, c) := w.connect database ahead queryOnly lockTimeout
    let (w, cs) := w.connectAll database ahead queryOnly lockTimeout n
    (w, c :: cs)

/-- The world with an empty database added, and its number. -/
def addDatabase (w : World) : World × Nat :=
  ({ w with databases := w.databases ++ [{}] }, w.databases.length)

/-- The database in the shared file, which is made if there is none. -/
def sharedFile (w : World) : World × Nat :=
  match w.file with
  | some d => (w, d)
  | none =>
    let (w, d) := w.addDatabase
    ({ w with file := some d }, d)

/-- Runs all statements of a text on a connection. -/
def runBatch (w : World) (i : Nat) (text : String) : Except DriverError World := do
  let commands ← (Command.parseAll text (text.length + 1) (Token.scan text)).mapError fun f =>
    f.toDriver (f.preparing text)
  let run : Run Unit := commands.forM fun command => do
    match command with
    | .nothing => return
    | command =>
      let plan ← liftM (Plan.ofCommand (← get).scope command)
      match ← Run.plan i plan [] with
      | .error f :: _ => throw f
      | _ => return
  let (r, w) := w.on i (Link.attempt Fault.running run)
  r.map fun () => w

end World

namespace Store

/-- A store without databases. -/
def empty : Store engine := { world := {}, owners := [] }

/-- The store with an adapter added. -/
def own (s : Store engine) (world : World) (owner : Owner engine) : Store engine :=
  { world, owners := s.owners ++ [owner] }

/-- Opens a private database in memory. -/
def openMemory (s : Store engine) (pooled : Bool) (lockTimeout : Nat) : Store engine :=
  let (w, d) := World.addDatabase s.world
  let (w, c) := w.connect d false false lockTimeout
  s.own w (if pooled then .pool (some c) [] 0 else .single (some c))

/-- Puts a text in the shared file. A file of one byte counts as empty. -/
def writeFile (s : Store engine) (text : String) : Store engine :=
  let world : World := s.world
  { s with world := { world with spoiled := 1 < text.utf8ByteSize } }

/-- Opens a private database in memory on which a batch of statements was run. -/
def openPrepared (s : Store engine) (batch : String) (lockTimeout : Nat) :
    Except Error (Store engine) := do
  let opened := s.openMemory false lockTimeout
  let world : World := opened.world
  let world ← (world.runBatch (world.connections.length - 1) batch).mapError (·.toError batch 0)
  return { opened with world }

/-- Opens the shared file by one connection, or by a pool with some readers. `missing` is the
path if there is no directory for it. -/
def openFile (s : Store engine) (missing : Option String) (readers : Option Nat)
    (lockTimeout : Nat) : Except Error (Store engine) :=
  let role := if readers.isSome then "writer" else "connection"
  let world : World := s.world
  match missing with
  | some path =>
    let what := if readers.isSome then s!"writer {path}" else path
    .error (.config s!"failed to open {what}: unable to open database file: {path}")
  | none =>
    if world.spoiled then
      .error (.config s!"failed to configure {role}: {Fault.notADatabase.running}")
    else
      let (w, d) := world.sharedFile
      let (w, writer) := w.connect d true false lockTimeout
      match readers with
      | none => .ok (s.own w (.single (some writer)))
      | some n =>
        let (w, numbers) := w.connectAll d true true lockTimeout n
        .ok (s.own w (.pool (some writer) (numbers.map some) 0))

end Store
end TableRecords.Embedded
