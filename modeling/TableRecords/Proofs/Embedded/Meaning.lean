import TableRecords.Embedded.Store
import TableRecords.Proofs.Action

/-!
# What is assumed of a driver

A `Meaning` tells of a driver what its connections see, what statements do to that, and whether a
connection is within a transaction.  `Meaning.Lawful` is what is assumed of a driver, and all that
is: a transaction that is let go of leaves what was to be seen at its `BEGIN`, and a statement that
fails does nothing.

    Meaning.Does    : what a call in a transaction does to what its connection sees
    Meaning.Course  : calls, one after the other
    Meaning.Ongoing : a transaction that was begun, and the calls in it
-/

namespace TableRecords.Embedded

/-! ## Calls of a driver -/

/-- A call of a driver, with what came back. -/
inductive Call (D : Driver) where
  | prepare (c : D.Connection) (sql : String) (answer : Except DriverError D.Statement)
  | execute (statement : D.Statement) (args : List Cell) (answer : Except DriverError Nat)
  | query (statement : D.Statement) (args : List Cell) (answer : Except DriverError D.Rows)
  | next (rows : D.Rows) (answer : Except DriverError (Option (List Cell))) (left : D.Rows)
  | release (rows : D.Rows)
  | begin (c : D.Connection) (answer : Except DriverError Unit)
  | commit (c : D.Connection) (answer : Except DriverError Unit)
  | abandon (c : D.Connection)

variable {D : Driver}

namespace Call

/-- A call leads from a world to another. -/
def Leads (w w' : D.World) : Call D → Prop
  | prepare c sql answer => D.prepare c sql w = (answer, w')
  | execute statement args answer => D.execute statement args w = (answer, w')
  | query statement args answer => D.query statement args w = (answer, w')
  | next rows answer left => D.next rows w = (answer, left, w')
  | release rows => D.release rows w = w'
  | begin c answer => D.begin c w = (answer, w')
  | commit c answer => D.commit c w = (answer, w')
  | abandon c => D.abandon c w = w'

/-- A statement failed.  One that was to give no rows and gave one did not. -/
def Fails : Call D → Prop
  | prepare _ _ (.error _) | query _ _ (.error _) | next _ (.error _) _ => True
  | execute _ _ (.error e) => e ≠ .returnedRows
  | _ => False

end Call

/-! ## Meanings -/

/-- How far the rows of a statement were read: their statement did not run yet, or it did. -/
inductive Stage (D : Driver) where
  | waiting (c : D.Connection) (text : String) (args : List Cell)
  | running (c : D.Connection)

/-- The connection of rows. -/
def Stage.connection : Stage D → D.Connection
  | waiting c _ _ => c
  | running c => c

/-- What the statements of a driver do. -/
structure Meaning (D : Driver) where
  /-- What a connection can see. -/
  Data : Type
  seen : D.Connection → D.World → Data
  /-- Whether a connection is within a transaction. -/
  Within : D.Connection → D.World → Prop
  /-- A statement gives rows and failures, up to its last row, and leaves something to be seen. -/
  Runs : (text : String) → (args : List Cell) → (before : Data) →
    (rows : List (Except DriverError (List Cell))) → (after : Data) → Prop
  /-- A text begins or ends a transaction. -/
  IsControl : String → Prop
  /-- What a statement is prepared from, which may lack blanks around a text. -/
  text : String → String
  /-- The connection and the text of a statement. -/
  source : D.Statement → D.Connection × String
  stage : D.Rows → Stage D

namespace Meaning

variable (M : Meaning D)

/-- Rows of a statement on a connection that begins and ends no transaction. -/
def PlainRows (c : D.Connection) (rows : D.Rows) : Prop :=
  match M.stage rows with
  | .waiting c' text _ => c' = c ∧ ¬ M.IsControl text
  | .running c' => c' = c

/-- A call for a statement on a connection that begins and ends no transaction. -/
def Plain (c : D.Connection) : Call D → Prop
  | .prepare c' sql _ => c' = c ∧ ¬ M.IsControl (M.text sql)
  | .execute statement _ _ | .query statement _ _ =>
    (M.source statement).1 = c ∧ ¬ M.IsControl (M.source statement).2
  | .next rows _ _ | .release rows => M.PlainRows c rows
  | .begin .. | .commit .. | .abandon _ => False

/-- **What a call does** to what its connection sees. -/
inductive Does (c : D.Connection) (w w' : D.World) : Call D → Prop where
  /-- What fails does nothing. -/
  | failed {call} (hfails : call.Fails) (h : M.seen c w' = M.seen c w) : Does c w w' call
  /-- Nothing is run to prepare a statement, to bind its arguments or to end the reading of rows. -/
  | prepared {sql statement} (h : M.seen c w' = M.seen c w) :
      Does c w w' (.prepare c sql (.ok statement))
  | opened {statement args rows} (h : M.seen c w' = M.seen c w) :
      Does c w w' (.query statement args (.ok rows))
  | released {rows} (h : M.seen c w' = M.seen c w) : Does c w w' (.release rows)
  | executed {statement args changed}
      (h : M.Runs (M.source statement).2 args (M.seen c w) [] (M.seen c w')) :
      Does c w w' (.execute statement args (.ok changed))
  /-- A statement that gives a row where none was asked for has run. -/
  | returned {statement args cells rows}
      (h : M.Runs (M.source statement).2 args (M.seen c w) (.ok cells :: rows) (M.seen c w')) :
      Does c w w' (.execute statement args (.error .returnedRows))
  /-- A query runs when the first of its rows is asked for, on what the calls before that left. -/
  | first {rows text args row left} (hstage : M.stage rows = .waiting c text args)
      (h : M.Runs text args (M.seen c w) (D.coming rows w) (M.seen c w')) :
      Does c w w' (.next rows (.ok row) left)
  /-- Nothing is run to read the rows behind the first. -/
  | later {rows row left} (hstage : M.stage rows = .running c) (h : M.seen c w' = M.seen c w) :
      Does c w w' (.next rows (.ok row) left)

/-- Calls for statements on a connection, one after the other. -/
inductive Course (c : D.Connection) : D.World → List (Call D) → D.World → Prop where
  | nil {w} : Course c w [] w
  | cons {w w₁ w' call calls} (leads : call.Leads w w₁) (plain : M.Plain c call)
      (does : M.Does c w w₁ call) (rest : Course c w₁ calls w') : Course c w (call :: calls) w'

/-- A transaction that was begun at `w₀` goes on: statements were run on its connection since then,
and nothing else was done. -/
def Ongoing (c : D.Connection) (w₀ w : D.World) : Prop :=
  ∃ w₁ calls, D.begin c w₀ = (.ok (), w₁) ∧ M.Course c w₁ calls w

/-! ## Assumptions -/

/-- **What is assumed of a driver.** -/
structure Lawful : Prop where
  source_prepare {c sql w statement w'} :
    D.prepare c sql w = (.ok statement, w') → M.source statement = (c, M.text sql)
  stage_query {statement args w rows w'} : D.query statement args w = (.ok rows, w') →
    M.stage rows = .waiting (M.source statement).1 (M.source statement).2 args
  stage_next {rows w answer left w'} : D.next rows w = (answer, left, w') →
    M.stage left = .running (M.stage rows).connection
  /-- In a transaction a statement runs on what is to be seen, and does nothing if it fails. -/
  does {c w₀ call w w'} : M.Ongoing c w₀ w → M.Plain c call → call.Leads w w' → M.Does c w w' call
  /-- A transaction stays open while statements run in it. -/
  stays {c w₀ w} : M.Ongoing c w₀ w → M.Within c w
  begins {c w w'} : D.begin c w = (.ok (), w') → ¬ M.Within c w ∧ M.seen c w' = M.seen c w
  begin_fails {c w e w'} : D.begin c w = (.error e, w') →
    (M.Within c w' ↔ M.Within c w) ∧ M.seen c w' = M.seen c w
  commits {c w₀ w w'} : M.Ongoing c w₀ w → D.commit c w = (.ok (), w') →
    ¬ M.Within c w' ∧ M.seen c w' = M.seen c w
  /-- To let go of a transaction that was not committed restores what was to be seen at its
  `BEGIN`. -/
  restores {c w₀ w w'} : M.Ongoing c w₀ w → (w' = w ∨ ∃ e, D.commit c w = (.error e, w')) →
    ¬ M.Within c (D.abandon c w') ∧ M.seen c (D.abandon c w') = M.seen c w₀

/-! ## Courses -/

variable {M} {c : D.Connection} {w w' w₀ w₁ : D.World} {calls more : List (Call D)}

theorem Course.append (h : M.Course c w calls w₁) (h' : M.Course c w₁ more w') :
    M.Course c w (calls ++ more) w' := by
  induction h with
  | nil => exact h'
  | cons leads plain does _ ih => exact .cons leads plain does (ih h')

/-- No call of a course begins or ends a transaction. -/
theorem Course.plain (h : M.Course c w calls w') : ∀ call ∈ calls, M.Plain c call := by
  induction h with
  | nil => exact fun _ hcall => absurd hcall List.not_mem_nil
  | cons _ plain _ _ ih => exact List.forall_mem_cons.2 ⟨plain, ih⟩

theorem PlainRows.connection {rows : D.Rows} (h : M.PlainRows c rows) :
    (M.stage rows).connection = c := by
  unfold PlainRows at h
  cases hstage : M.stage rows with
  | waiting c' text args =>
    rw [hstage] at h
    exact h.1
  | running c' =>
    rw [hstage] at h
    exact h

theorem Ongoing.append (h : M.Ongoing c w₀ w) (hcourse : M.Course c w calls w') :
    M.Ongoing c w₀ w' := by
  obtain ⟨w₁, before, hbegin, hbefore⟩ := h
  exact ⟨w₁, before ++ calls, hbegin, hbefore.append hcourse⟩

end Meaning
end TableRecords.Embedded
