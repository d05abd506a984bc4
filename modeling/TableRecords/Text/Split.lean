import TableRecords.Text.Blank

/-!
# Splitting text

A text divided at a separator has one part more than it has separators, and no part holds one.
-/

namespace TableRecords.Text

/-- The part before the first separator and the parts behind it. -/
def splitOn (separator : Char) : List Char → List Char × List (List Char)
  | [] => ([], [])
  | c :: cs =>
    let (part, more) := splitOn separator cs
    if c = separator then ([], part :: more) else (c :: part, more)

/-- The part before the first comma and the parts behind it, each without blanks around it. -/
def trimmedParts (s : String) : String × List String :=
  let (first, more) := splitOn ',' s.toList
  (String.ofList (trimChars first), more.map fun part => String.ofList (trimChars part))

end TableRecords.Text
