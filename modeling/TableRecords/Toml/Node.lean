/-!
# TOML documents

A document is a table of named nodes. A table remembers how it came about, because that decides
what may still be added to it: `enter` follows a path and adds the tables on it that are
missing, and refuses to go through a value that is closed.
-/

namespace TableRecords.Toml

/-- How a table came about. -/
inductive Origin where
  /-- By its own header. -/
  | header
  /-- As a part of the header of another table. -/
  | onHeaderPath
  /-- As a part of a dotted key. -/
  | dottedKey
  deriving DecidableEq, Repr

/-- A value of a document. -/
inductive Node where
  | text (s : String)
  | integer (n : Int)
  | real (x : Float)
  | bool (b : Bool)
  /-- A date, a time or both, as written. -/
  | moment (s : String)
  | array (items : List Node)
  /-- A table written in braces. Nothing can be added to it. -/
  | inlineTable (members : List (String × Node))
  | table (origin : Origin) (members : List (String × Node))
  /-- An array of tables, each with a header of its own; the last comes last. -/
  | tables (elements : List (List (String × Node)))
  deriving Inhabited

/-- The named nodes of a table. -/
abbrev Members : Type := List (String × Node)

namespace Members

/-- The node of a name. -/
def find? (ms : Members) (name : String) : Option Node := ms.lookup name

/-- Sets the node of a name, in place or at the end. -/
def put (name : String) (node : Node) : Members → Members
  | [] => [(name, node)]
  | (k, n) :: rest => if k = name then (k, node) :: rest else (k, n) :: put name node rest

/-- Adds a node of a new name. -/
def add? (ms : Members) (name : String) (node : Node) : Option Members :=
  if (ms.find? name).isSome then none else some (ms ++ [(name, node)])

/-- Changes the table at the end of a path. The path is part of a header, or of a dotted key: a
dotted key does not go into a table that has a header. The change is told how its table came
about. -/
def enter (dotted : Bool) : (path : List String) → (Origin → Members → Option Members) →
    (origin : Origin) → Members → Option Members
  | [], change, origin, ms => change origin ms
  | name :: path, change, _, ms =>
    match ms.find? name with
    | none => do
      let origin := if dotted then .dottedKey else .onHeaderPath
      return ms.put name (.table origin (← enter dotted path change origin []))
    | some (.table origin inner) =>
      if dotted ∧ origin = .header then none
      else do return ms.put name (.table origin (← enter dotted path change origin inner))
    | some (.tables elements) => do
      let last ← enter dotted path change .header (← elements.getLast?)
      return ms.put name (.tables (elements.dropLast ++ [last]))
    | some _ => none

/-- Adds a node under a dotted key. Only a table that the same kind of key made takes more. -/
def addAt? (origin : Origin) (ms : Members) (path : List String) (name : String)
    (node : Node) : Option Members :=
  enter true path
    (fun origin ms =>
      if origin = .dottedKey ↔ path ≠ [] then ms.add? name node else none)
    origin ms

/-- Opens the table of a header. -/
def openTable? (root : Members) (path : List String) (name : String) : Option Members :=
  enter false path
    (fun _ ms =>
      match ms.find? name with
      | none => some (ms ++ [(name, .table .header [])])
      | some (.table .onHeaderPath inner) => some (ms.put name (.table .header inner))
      | some _ => none)
    .header root

/-- Opens a further table of an array of tables. -/
def openElement? (root : Members) (path : List String) (name : String) : Option Members :=
  enter false path
    (fun _ ms =>
      match ms.find? name with
      | none => some (ms ++ [(name, .tables [[]])])
      | some (.tables elements) => some (ms.put name (.tables (elements ++ [[]])))
      | some _ => none)
    .header root

end Members
end TableRecords.Toml
