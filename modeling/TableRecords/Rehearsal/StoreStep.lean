import TableRecords.Embedded.Store

/-!
# Rehearsals on a store

A rehearsal that speaks to the adapters of a store directly: it runs statements, reads the rows of
queries as far as it is told, and nests transactions. A query that fails is reported with what
was read before and does not end a transaction.
-/

namespace TableRecords.Rehearsal

open Embedded (Driver Store Handle)

variable {D : Driver}

/-- What a step does on an adapter. -/
inductive StoreRequest where
  | execute (sql : String) (args : List Value)
  /-- Reads at most `limit` rows; then fails with `fault` if there is one. -/
  | query (sql : String) (args : List Value) (limit : Option Nat) (fault : Option String)
  | close
  | dialect
  | pool

/-- A step. `on` is the number of an adapter; a step without it runs on the adapter at hand. -/
inductive StoreStep where
  | request (request : StoreRequest) (on : Option Nat) (mayFail : Bool)
  | transaction (steps : List StoreStep) (abort : Option String) (on : Option Nat)
    (mayFail : Bool)

/-- What a query showed. -/
structure Sight where
  columns : List String := []
  rows : List (List Value) := []
  deriving DecidableEq

/-- What a step gives. -/
inductive StoreOutcome where
  | done
  | executed (r : ExecResult)
  | seen (s : Sight) (failed : Option Error)
  | dialect (name : String)
  | pool (state : Option (Nat × Bool))

/-- What is told of a step. -/
structure StoreReport where
  result : Except Error StoreOutcome
  /-- The reports of nested steps. -/
  nested : Option (List StoreReport)

/-- Reads rows of a cursor, at most `limit`. -/
def readRows : (limit : Nat) → Action (Sight × Cursor) Unit
  | 0 => return
  | limit + 1 => do
    match ← Cursor.next.onSecond with
    | none => return
    | some row =>
      modify fun (s, c) => ({ s with rows := s.rows ++ [row] }, c)
      readRows limit

/-- Notes the columns of a cursor, reads its rows and fails if it is told to. -/
def look (limit : Option Nat) (fault : Option String) : Action (Sight × Cursor) Unit := do
  let (_, cursor) ← get
  modify fun (s, c) => ({ s with columns := cursor.columns }, c)
  readRows (limit.getD (cursor.rows.length + 1))
  match fault with
  | some text => throw (.invalidArgument text)
  | none => return

/-- Runs a request. -/
def StoreRequest.run (h : Handle D) : StoreRequest → Action (Store D) StoreOutcome
  | execute sql args => do return .executed (← Store.adapter.execute h sql args)
  | query sql args limit fault => .of fun s =>
    let (r, (sight, s)) := (Store.adapter.query h sql args (look limit fault)).exec ({}, s)
    let failed := match r with
      | .ok () => none
      | .error e => some e
    (.ok (.seen sight failed), s)
  | close => do Store.adapter.close h; return .done
  | dialect => return .dialect (Store.adapter (D := D)).dialectName
  | pool =>
    match h with
    | .owner i => do return .pool (← Store.poolState i)
    | .connection _ => return .pool none

/-- The handle that a step runs on. -/
def handleOf (current : Handle D) (on : Option Nat) : Handle D :=
  match on with
  | some i => .owner i
  | none => current

/-- Adds the report of a step, and fails with its error if that counts. -/
def StoreReport.settle (report : StoreReport) (mayFail : Bool) :
    Action (List StoreReport × Store D) Unit :=
  .of fun (reports, s) =>
    let r := match report.result with
      | .error e => if mayFail then .ok () else .error e
      | .ok _ => .ok ()
    (r, (reports ++ [report], s))

mutual

/-- Runs a step and adds its report. -/
def StoreStep.run (current : Handle D) : StoreStep → Action (List StoreReport × Store D) Unit
  | .request request on mayFail => do
    let (reports, s) ← get
    let (result, s) := (request.run (handleOf current on)).exec s
    set (reports, s)
    StoreReport.settle ⟨result, none⟩ mayFail
  | .transaction steps abort on mayFail => do
    let (reports, s) ← get
    let body := fun (h : Handle D) => do
      runStoreSteps h steps
      match abort with
      | some text => throw (Error.invalidArgument text)
      | none => return
    let (result, (nested, s)) :=
      (Store.adapter.transaction (handleOf current on) body).exec ([], s)
    set (reports, s)
    StoreReport.settle ⟨result.map fun () => .done, some nested⟩ mayFail

/-- Runs steps up to the first that fails. -/
def runStoreSteps (current : Handle D) :
    List StoreStep → Action (List StoreReport × Store D) Unit
  | [] => return
  | step :: rest => do
    step.run current
    runStoreSteps current rest

end

/-- Runs all steps, whether they fail or not, on the first adapter where they name none. -/
def rehearseStore :
    List StoreStep → List StoreReport × Store D → List StoreReport × Store D
  | [], state => state
  | step :: rest, state => rehearseStore rest ((step.run (.owner 0)).exec state).2

end TableRecords.Rehearsal
