import TableRecords.Adapter

/-!
# Scripted adapters

An adapter that has no database behind it: it answers from queues that are filled in advance and
keeps a log of its calls. Once it is closed every call but `close` fails and is not logged.
-/

namespace TableRecords.Rehearsal

/-- A scripted failure. -/
structure Failure where
  kind : AdapterErrorKind
  detail : String
  deriving DecidableEq, Repr

/-- The failure of a call. -/
def Failure.toError (f : Failure) (sql : String) (args : List Value) : Error :=
  .adapter ⟨f.kind, sql, args.length, f.detail⟩

/-- How often the body of a transaction is run; a second run needs the first to succeed. -/
inductive Runs where
  | once
  | never
  | twice
  deriving DecidableEq, Repr

/-- A row that is read, or a failure to read it. -/
abbrev RowAnswer : Type := Except Failure (List Value)

/-- The columns and rows that answer a query, or a failure before there are any. -/
abbrev QueryAnswer : Type := Except Failure (List String × List RowAnswer)

/-- A logged call. -/
inductive Call where
  | execute (sql : String) (args : List Value)
  | query (sql : String) (args : List Value)
  | begin
  | commit
  | rollback
  | close
  deriving DecidableEq

/-- The answers that are left, and what was called. -/
structure Script where
  execs : List (Except Failure ExecResult) := []
  queries : List QueryAnswer := []
  transactions : List Runs := []
  closed : Bool := false
  /-- The calls since the log was last taken. -/
  calls : List Call := []

namespace Script

/-- Adds a call to the log. -/
def log (call : Call) (s : Script) : Script := { s with calls := s.calls ++ [call] }

/-- The log, which is empty afterwards. -/
def takeCalls : StateM Script (List Call) := fun s => (s.calls, { s with calls := [] })

/-- Fails if the adapter is closed. -/
def needOpen (sql : String) (argCount : Nat) : Action Script Unit :=
  .of fun s => (if s.closed then .error (.adapter (.closed sql argCount)) else .ok (), s)

/-- Answers a statement without rows; without a scripted answer it changed one row. -/
def execute (sql : String) (args : List Value) : Action Script ExecResult := do
  needOpen sql args.length
  .of fun s =>
    let s := s.log (.execute sql args)
    match s.execs with
    | [] => (.ok ⟨1, none⟩, s)
    | answer :: rest => (answer.mapError fun f => f.toError sql args, { s with execs := rest })

/-- The answer to a query; without a scripted one it has no columns and no rows. -/
def nextQuery (sql : String) (args : List Value) : Action Script Cursor := do
  needOpen sql args.length
  .of fun s =>
    let s := s.log (.query sql args)
    match s.queries with
    | [] => (.ok { columns := [], rows := [] }, s)
    | .error f :: rest => (.error (f.toError sql args), { s with queries := rest })
    | .ok (columns, rows) :: rest =>
      let rows := rows.map fun row => row.mapError fun f => f.toError sql args
      (.ok { columns, rows }, { s with queries := rest })

/-- Answers a query. -/
def query {β : Type} (sql : String) (args : List Value) (visit : Action (β × Cursor) Unit) :
    Action (β × Script) Unit := do
  let cursor ← (nextQuery sql args).onSecond
  .of fun (b, s) =>
    let (r, (b, _)) := visit.exec (b, cursor)
    (r, (b, s))

/-- Opens a transaction and tells how often its body is run. -/
def begin : Action Script Runs := do
  needOpen "BEGIN" 0
  .of fun s =>
    let s := s.log .begin
    match s.transactions with
    | [] => (.ok .once, s)
    | runs :: rest => (.ok runs, { s with transactions := rest })

/-- Runs the body of a transaction as often as the script says. -/
def transaction {β : Type} (body : Unit → Action (β × Script) Unit) :
    Action (β × Script) Unit := do
  let runs ← begin.onSecond
  let all : Action (β × Script) Unit :=
    match runs with
    | .never => pure ()
    | .once => body ()
    | .twice => do
      body ()
      body ()
  .of fun s =>
    let (r, (b, s)) := all.exec s
    let outcome := match r with
      | .ok () => Call.commit
      | .error _ => Call.rollback
    (r, (b, s.log outcome))

/-- Closes the adapter. -/
def close : Action Script Unit :=
  .of fun s => (.ok (), { s.log .close with closed := true })

/-- The scripted adapter of a dialect. -/
def adapter (dialectName : String) : Adapter Script Unit where
  dialectName := dialectName
  execute _ := execute
  query _ := query
  transaction _ := transaction
  close _ := close

end Script
end TableRecords.Rehearsal
