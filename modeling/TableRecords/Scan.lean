import TableRecords.Cursor
import TableRecords.Mapping.Basic

/-!
# Reading rows into records

A row is matched to the fields of a record by the names of its columns. Columns without a field
go into the remainder field, as a JSON object, if the record has one. `row` copies one row,
`one` at most one row of a cursor, and `all` makes a record of every row that is left.
-/

namespace TableRecords.Scan

variable [JsonLibrary]

/-- A row whose columns were copied: the record, and the columns without a field. -/
structure Copied (ρ : Type) where
  record : ρ
  unmatched : List (String × Json)

/-- Copies the value of one column. A value that does not fit its field changes nothing. -/
def column {ρ : Type} (m : Mapping) (type : RecordType ρ) (name : String) (v : Value) :
    Action (Copied ρ) Unit :=
  .of fun s =>
    match m.indexOf? name with
    | some i =>
      let f := m.field i
      match type.set s.record f.path v with
      | .ok record => (.ok (), { s with record })
      | .error e => (.error (.scanTypeMismatch name f.field e), s)
    | none => (.ok (), { s with unmatched := Json.insertMember name v.toJson s.unmatched })

/-- Copies columns from left to right up to the first that does not fit. -/
def columns {ρ : Type} (m : Mapping) (type : RecordType ρ) (row : List (String × Value)) :
    Action (Copied ρ) Unit :=
  row.forM fun (name, v) => column m type name v

/-- Sets the remainder field from the columns without a field, if there are both. -/
def remainder {ρ : Type} (m : Mapping) (type : RecordType ρ) : Action (Copied ρ) Unit :=
  .of fun s =>
    match m.remainder with
    | none => (.ok (), s)
    | some f =>
      if s.unmatched.isEmpty then (.ok (), s)
      else
        match type.set s.record f.path (.text (JsonLibrary.print (.object s.unmatched))) with
        | .ok record => (.ok (), { s with record })
        | .error e => (.error (.scanTypeMismatch "<remainder>" f.field e), s)

/-- Copies a row into a record. -/
def row {ρ : Type} (m : Mapping) (type : RecordType ρ) (names : List String)
    (values : List Value) : Action ρ Unit :=
  .of fun d =>
    if values.length ≠ names.length then
      (.error (.invalidArgument
        s!"row has {values.length} values for {names.length} columns"), d)
    else
      let (r, s) := (do columns m type (names.zip values); remainder m type : Action _ _).exec
        ⟨d, []⟩
      (r, s.record)

/-- Copies the next row of a cursor, if there is one, and tells whether there was. -/
def one {ρ : Type} (m : Mapping) (type : RecordType ρ) : Action (ρ × Cursor) Bool := do
  let (_, cursor) ← get
  match ← Cursor.next.onSecond with
  | none => return false
  | some values =>
    (row m type cursor.columns values).onFirst
    return true

/-- The record that a row makes of one none of whose fields was set. -/
def fresh {ρ : Type} (m : Mapping) (type : RecordType ρ) (names : List String)
    (values : List Value) : Except Error ρ :=
  match (row m type names values).exec type.zero with
  | (.ok (), d) => .ok d
  | (.error e, _) => .error e

/-- Appends a record for each of the next rows, at most `limit`, and counts them. A row that
cannot be copied appends nothing. -/
def appendUpTo {ρ : Type} (m : Mapping) (type : RecordType ρ) (names : List String) :
    (limit : Nat) → Action (List ρ × Cursor) Nat
  | 0 => return 0
  | limit + 1 => do
    match ← Cursor.next.onSecond with
    | none => return 0
    | some values =>
      let d ← fresh m type names values
      modify fun (records, cursor) => (records ++ [d], cursor)
      return (← appendUpTo m type names limit) + 1

/-- Appends a record for every row that is left, and counts them. -/
def all {ρ : Type} (m : Mapping) (type : RecordType ρ) : Action (List ρ × Cursor) Nat := do
  let (_, cursor) ← get
  appendUpTo m type cursor.columns (cursor.rows.length + 1)

end TableRecords.Scan
