import TableRecords.Toml.Lexeme

/-!
# Reading a TOML document

`parse` reads the lines of a document: blank lines and comments, headers that open a table, and
keys with values that go into the table that is open. A value is read to any allowed depth by
recursion on the depth that is left.
-/

namespace TableRecords.Toml

/-! ## Values -/

/-- The items of an array behind its bracket, read by `item`. -/
def arrayRest (item : Reader Node) : (fuel : Nat) → Reader (List Node)
  | 0, _ => none
  | fuel + 1, cs =>
    match skipLines (cs.length + 1) cs with
    | ']' :: cs => some ([], cs)
    | cs => do
      let (x, cs) ← item cs
      match skipLines (cs.length + 1) cs with
      | ',' :: cs =>
        let (xs, cs) ← arrayRest item fuel cs
        return (x :: xs, cs)
      | ']' :: cs => return ([x], cs)
      | _ => none

/-- The members of an inline table behind its brace and `members`, read by `item`. -/
def inlineRest (item : Reader Node) : (fuel : Nat) → Members → Reader Members
  | 0, _, _ => none
  | fuel + 1, members, cs => do
    let ((path, name), cs) ← key cs
    let (x, cs) ← item (skipBlanks (← expect '=' (skipBlanks cs)))
    let members ← members.addAt? .header path name x
    match skipBlanks cs with
    | ',' :: cs => inlineRest item fuel members cs
    | '\x7d' :: cs => return (members, cs)
    | _ => none

/-- A value without brackets or braces. -/
def scalar : Reader Node
  | '0' :: 'x' :: cs => inBase 16 cs
  | '0' :: 'o' :: cs => inBase 8 cs
  | '0' :: 'b' :: cs => inBase 2 cs
  | 't' :: 'r' :: 'u' :: 'e' :: cs => some (.bool true, cs)
  | 'f' :: 'a' :: 'l' :: 's' :: 'e' :: cs => some (.bool false, cs)
  | cs =>
    if cs.head? = some '\x22' ∨ cs.head? = some '\x27' then
      (string cs).map fun (s, cs) => (.text (String.ofList s), cs)
    else (moment cs).or (decimal cs)

/-- A value whose arrays and inline tables nest at most `depth` levels deep. -/
def value : (depth : Nat) → Reader Node
  | 0, cs => scalar cs
  | depth + 1, '[' :: cs =>
    (arrayRest (value depth) (cs.length + 1) cs).map fun (xs, cs) => (.array xs, cs)
  | depth + 1, '\x7b' :: cs =>
    match skipBlanks cs with
    | '\x7d' :: cs => some (.inlineTable [], cs)
    | cs =>
      (inlineRest (value depth) (cs.length + 1) [] cs).map fun (ms, cs) => (.inlineTable ms, cs)
  | _ + 1, cs => scalar cs

/-! ## Lines -/

/-- A document that is read up to some line: its members, and the header of the open table. -/
structure Draft where
  root : Members
  /-- The path of the open table; it is empty for the document itself. -/
  opened : List String

/-- A header: the key between its brackets and whether there are two of them. -/
def header : Reader (Bool × List String × String)
  | '[' :: '[' :: cs => do
    let (k, cs) ← key cs
    let cs ← expect ']' (← expect ']' (skipBlanks cs))
    return ((true, k), cs)
  | '[' :: cs => do
    let (k, cs) ← key cs
    let cs ← expect ']' (skipBlanks cs)
    return ((false, k), cs)
  | _ => none

/-- Reads a line. -/
def line (d : Draft) (cs : List Char) : Option (Draft × List Char) := do
  match skipBlanks cs with
  | '[' :: rest =>
    let ((isArray, path, name), rest) ← header ('[' :: rest)
    let root ←
      if isArray then d.root.openElement? path name else d.root.openTable? path name
    return (⟨root, path ++ [name]⟩, ← lineEnd? rest)
  | [] => return (d, [])
  | c :: rest =>
    if c = '#' ∨ c = '\n' ∨ c = '\x0d' then return (d, ← lineEnd? (c :: rest))
    else
      let ((path, name), rest) ← key (c :: rest)
      let (x, rest) ← value maxDepth (skipBlanks (← expect '=' (skipBlanks rest)))
      let root ← d.root.enter false d.opened
        (fun _ ms => ms.addAt? .header path name x) .header
      return ({ d with root }, ← lineEnd? rest)

/-- Reads the lines that are left. -/
def lines : (fuel : Nat) → Draft → List Char → Option Members
  | _, d, [] => some d.root
  | 0, _, _ => none
  | fuel + 1, d, cs => do
    let (d, cs) ← line d cs
    lines fuel d cs

/-- Reads a document. A byte order mark in front does not count. -/
def parse (s : String) : Option Members :=
  let cs := s.toList
  let cs := if cs.head? = some '\ufeff' then cs.tail else cs
  lines (cs.length + 1) ⟨[], []⟩ cs

end TableRecords.Toml
