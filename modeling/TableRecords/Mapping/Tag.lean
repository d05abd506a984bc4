import TableRecords.Text.Quoted
import TableRecords.Text.Split

/-!
# Tags

A tag names the column of a field and says what is special about it: `column` or
`column,modifier,…`, with blanks allowed around each part. `parse` reads one, and refuses a
column that is empty or has blanks inside, a modifier that is unknown or repeated, and
modifiers that exclude each other.
-/

namespace TableRecords

/-- What is special about a field. -/
inductive Modifier where
  /-- Part of the primary key. -/
  | primaryKey
  /-- Assigned by the database: never written, read back after an insert. -/
  | generated
  /-- Takes the columns of a row that no field is mapped to. The column of the tag is a label. -/
  | remainder
  /-- Holds a record whose columns are mapped as if they were declared here. -/
  | embed
  deriving DecidableEq, Repr

/-- The modifier that a word stands for. -/
def Modifier.ofName? : String → Option Modifier
  | "pk" | "primary_key" => some primaryKey
  | "generated" => some generated
  | "remainder" => some remainder
  | "embed" => some embed
  | _ => none

/-- A tag, taken apart. -/
structure Tag where
  column : String
  primaryKey : Bool := false
  generated : Bool := false
  remainder : Bool := false
  embed : Bool := false
  deriving DecidableEq, Repr

/-- Why a text is not a tag. -/
inductive TagError where
  | emptyColumn (text : String)
  | blankInColumn (column : String)
  | emptyModifier (text : String)
  | unknownModifier (word text : String)
  | repeatedModifier (word text : String)
  /-- A remainder with another modifier. -/
  | remainderNotAlone (column : String)
  /-- An embedded record with a modifier that speaks of a single column. -/
  | embedOfColumn (column : String)
  deriving DecidableEq

namespace TagError

/-- The wording. -/
def message : TagError → String
  | emptyColumn text => s!"tag {Text.quoted text} has an empty column name"
  | blankInColumn column => s!"column name {Text.quoted column} contains whitespace"
  | emptyModifier text => s!"tag {Text.quoted text} has an empty modifier"
  | unknownModifier word text => s!"unknown modifier {Text.quoted word} in tag {Text.quoted text}"
  | repeatedModifier word text =>
    s!"modifier {Text.quoted word} repeated in tag {Text.quoted text}"
  | remainderNotAlone column =>
    s!"remainder field {Text.quoted column} cannot carry other modifiers"
  | embedOfColumn column => s!"embedded field {Text.quoted column} cannot be a key or generated"

end TagError

namespace Tag

/-- Whether a modifier is set. -/
def has (tag : Tag) : Modifier → Bool
  | .primaryKey => tag.primaryKey
  | .generated => tag.generated
  | .remainder => tag.remainder
  | .embed => tag.embed

/-- The tag with a modifier set. -/
def add (tag : Tag) : Modifier → Tag
  | .primaryKey => { tag with primaryKey := true }
  | .generated => { tag with generated := true }
  | .remainder => { tag with remainder := true }
  | .embed => { tag with embed := true }

/-- The tag with the modifier of a word added; `text` is the whole tag. -/
def addWord (text : String) (tag : Tag) (word : String) : Except TagError Tag :=
  match Modifier.ofName? word with
  | none => .error (if word = "" then .emptyModifier text else .unknownModifier word text)
  | some modifier =>
    if tag.has modifier then .error (.repeatedModifier word text) else .ok (tag.add modifier)

/-- The tag, if its modifiers go together. -/
def consistent (tag : Tag) : Except TagError Tag :=
  if tag.remainder ∧ (tag.primaryKey ∨ tag.generated ∨ tag.embed) then
    .error (.remainderNotAlone tag.column)
  else if tag.embed ∧ (tag.primaryKey ∨ tag.generated) then .error (.embedOfColumn tag.column)
  else .ok tag

/-- Reads a tag. -/
def parse (text : String) : Except TagError Tag :=
  let (column, words) := Text.trimmedParts text
  if column = "" then .error (.emptyColumn text)
  else if column.toList.any Text.isBlank then .error (.blankInColumn column)
  else do (← words.foldlM (addWord text) { column }).consistent

end Tag
end TableRecords
