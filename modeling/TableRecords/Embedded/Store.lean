import TableRecords.Config
import TableRecords.Dialect
import TableRecords.Embedded.Driver

/-!
# Adapters on a driver

A store holds the world of a driver and the adapters that own connections in it. A single adapter
has one connection. A pool has one that writes and some that only read, which take turns. Where a
connection was closed, its slot is empty.

`Store.adapter` makes the calls of an adapter out of those of the driver: a transaction is begun
and committed on one connection, and a transaction inside a transaction is part of it. A visitor
of `Store.visit` reads the rows of the driver one by one and may use the store between two of
them. One of `Store.query` does not use the store, so it is handed all rows to come, and only
those that it asked for are read.
-/

namespace TableRecords.Embedded

variable {D : Driver} {α β : Type}

/-- A connection, or nothing once it was closed. -/
abbrev Slot (D : Driver) : Type := Option D.Connection

/-- The connection in a slot, for a call with a text and a number of arguments. -/
def Slot.open (slot : Slot D) (sql : String) (argCount : Nat) : Except Error D.Connection :=
  match slot with
  | some c => .ok c
  | none => .error (.adapter (.closed sql argCount))

/-- An adapter that owns connections. -/
inductive Owner (D : Driver) where
  | single (slot : Slot D)
  /-- `turns` counts how often a reader was asked for. -/
  | pool (writer : Slot D) (readers : List (Slot D)) (turns : Nat)

/-- The world of a driver and the adapters in it, each known by its number. -/
structure Store (D : Driver) where
  world : D.World
  owners : List (Owner D)

/-- Access to an adapter, or to a connection within a transaction on it. -/
inductive Handle (D : Driver) where
  | owner (i : Nat)
  | connection (c : D.Connection)

namespace Owner

/-- The connection that writes. -/
def writer : Owner D → Slot D
  | single slot => slot
  | pool writer _ _ => writer

/-- The connection for a query, and the adapter after it was chosen: in a pool the next reader,
for a statement that only reads. -/
def route (sql : String) : Owner D → Slot D × Owner D
  | single slot => (slot, single slot)
  | pool writer readers turns =>
    if isReadOnly sql && !readers.isEmpty then
      (readers.getD (turns % readers.length) none, pool writer readers (turns + 1))
    else (writer, pool writer readers turns)

end Owner

namespace Store

/-- Does something in the world of the driver. -/
def onWorld (a : Action D.World α) : Action (Store D) α :=
  .of fun s => let (r, world) := a.exec s.world; (r, { s with world })

/-- The connection that a handle writes on. -/
def writerOf (s : Store D) : Handle D → Slot D
  | .owner i => s.owners[i]?.bind Owner.writer
  | .connection c => some c

/-- Chooses the connection for a query. -/
def route (h : Handle D) (sql : String) : Action (Store D) (Slot D) :=
  .of fun s =>
    match h with
    | .connection c => (.ok (some c), s)
    | .owner i =>
      match s.owners[i]? with
      | none => (.ok none, s)
      | some owner =>
        let (slot, owner) := owner.route sql
        (.ok slot, { s with owners := s.owners.set i owner })

/-- Runs a statement that gives no rows. -/
def execute (h : Handle D) (sql : String) (args : List Value) : Action (Store D) ExecResult := do
  let c ← liftM ((← get).writerOf h |>.open sql args.length)
  onWorld (D.executeOn c sql args)

/-! ## Queries -/

/-- Lets a visitor read the rows of a statement on a connection. -/
def visitOn (c : D.Connection) (sql : String) (args : List Value)
    (visit : Action ((β × Reader D) × Store D) Unit) : Action (β × Store D) Unit := do
  let reader ← (onWorld (D.openOn c sql args)).onSecond
  .of fun (b, s) =>
    let (r, ((b, reader), s)) := visit.exec ((b, reader), s)
    (r, (b, { s with world := D.release reader.rows s.world }))

/-- A visitor that reads rows by itself, from a cursor. -/
def reading (visit : Action (β × Cursor) Unit) : Action ((β × Reader D) × Store D) Unit :=
  .of fun ((b, reader), s) =>
    let (r, (b, left)) := visit.exec (b, reader.cursor s.world)
    let (reader, world) := reader.skip left.fetched s.world
    (r, ((b, reader), { s with world }))

/-- Lets a visitor read the rows of a statement, which may use the store. -/
def visit (h : Handle D) (sql : String) (args : List Value)
    (visit : Action ((β × Reader D) × Store D) Unit) : Action (β × Store D) Unit := do
  let slot ← (route h sql).onSecond
  let c ← liftM (slot.open sql args.length)
  visitOn c sql args visit

/-- Lets a visitor read the rows of a statement from a cursor. -/
def query (h : Handle D) (sql : String) (args : List Value)
    (visit : Action (β × Cursor) Unit) : Action (β × Store D) Unit :=
  Store.visit h sql args (reading visit)

/-! ## Transactions -/

/-- Runs a body in a transaction on a connection. One that was begun is let go of if the body or
its end fails. -/
def transactionOn (c : D.Connection) (body : Handle D → Action (β × Store D) Unit) :
    Action (β × Store D) Unit := do
  (onWorld (D.call "BEGIN" 0 (D.begin c))).onSecond
  tryCatch (do body (.connection c); (onWorld (D.call "COMMIT" 0 (D.commit c))).onSecond)
    fun e => do
      modify fun (b, s) => (b, { s with world := D.abandon c s.world })
      throw e

/-- Runs a body in a transaction. -/
def transaction (h : Handle D) (body : Handle D → Action (β × Store D) Unit) :
    Action (β × Store D) Unit :=
  match h with
  | .connection _ => body h
  | .owner _ => do
    let (_, s) ← get
    let c ← liftM ((s.writerOf h).open "BEGIN" 0)
    transactionOn c body

/-! ## Closing -/

/-- Closes the connection in a slot. One that the driver does not close stays there. -/
def closeSlot (slot : Slot D) (w : D.World) : Except Error Unit × Slot D × D.World :=
  match slot with
  | none => (.ok (), none, w)
  | some c =>
    match D.close c w with
    | (.ok (), w) => (.ok (), none, w)
    | (.error e, w) => (.error (e.toError "" 0), some c, w)

/-- Closes the connections in slots, whether one before was closed or not. The first error is
told. -/
def closeSlots : List (Slot D) → D.World → Except Error Unit × List (Slot D) × D.World
  | [], w => (.ok (), [], w)
  | slot :: slots, w =>
    let (first, slot, w) := closeSlot slot w
    let (others, slots, w) := closeSlots slots w
    (first.bind fun () => others, slot :: slots, w)

/-- Closes the connections of an adapter, those that read first. -/
def closeOwner (owner : Owner D) (w : D.World) : Except Error Unit × Owner D × D.World :=
  match owner with
  | .single slot =>
    let (r, slot, w) := closeSlot slot w
    (r, .single slot, w)
  | .pool writer readers turns =>
    let (first, readers, w) := closeSlots readers w
    let (last, writer, w) := closeSlot writer w
    (first.bind fun () => last, .pool writer readers turns, w)

/-- Closes an adapter. From within a transaction nothing is closed. -/
def close (h : Handle D) : Action (Store D) Unit :=
  .of fun s =>
    match h with
    | .connection _ => (.ok (), s)
    | .owner i =>
      match s.owners[i]? with
      | none => (.ok (), s)
      | some owner =>
        let (r, owner, world) := closeOwner owner s.world
        (r, { world, owners := s.owners.set i owner })

/-- The adapters of a store. -/
def adapter : Adapter (Store D) (Handle D) where
  dialectName := Dialect.sqlite.name
  execute := execute
  query := query
  transaction := transaction
  close := close

/-! ## The state of a pool -/

/-- Notes the text that the first row begins with. -/
def readText : Action (String × Cursor) Unit := do
  match ← Cursor.next.onSecond with
  | some (.text mode :: _) => modify fun (_, cursor) => (mode, cursor)
  | _ => return

/-- Whether a connection writes ahead. One that is closed, or does not tell, does not. -/
def writesAhead (slot : Slot D) : Action (Store D) Bool :=
  .of fun s =>
    let asked : Action (String × Store D) Unit := do
      let c ← liftM (slot.open "PRAGMA journal_mode" 0)
      visitOn c "PRAGMA journal_mode" [] (reading readText)
    let (r, (mode, s)) := asked.exec ("", s)
    (.ok (r.toOption.isSome && Text.sameIgnoringCase mode "wal"), s)

/-- How many readers an adapter has and whether it writes ahead, for a pool. -/
def poolState (i : Nat) : Action (Store D) (Option (Nat × Bool)) := do
  match (← get).owners[i]? with
  | some (.pool writer readers _) => return some (readers.length, ← writesAhead writer)
  | _ => return none

end Store
end TableRecords.Embedded
