import TableRecords.Sql.Placeholder
import TableRecords.Statement.Basic

/-!
# Reads with text of the caller

`select` reads the rows of a table that meet a condition, `selectSql` the rows of a statement;
both texts mark their arguments by `?`. A statement that begins with `FROM` gets the columns of
the record type in front.
-/

namespace TableRecords.Statement

open Sql (Fragment columnList withPlaceholders)

/-- Reads the columns of a mapping from the rows of a table that meet a condition; a blank
condition is none. -/
def select (m : Mapping) (d : Dialect) (table : Table) (filter : String) (args : List Value) :
    Except Error Statement := do
  let condition := Text.trim filter
  let written ← withPlaceholders condition d 0 args.length
  let head := .text "SELECT " :: columnList m.columns ++ [.text s!" FROM {table.name}"]
  let tail := if condition = "" then [] else [.text " WHERE ", .text written]
  return {
    kind := .select
    table := table.name
    columns := m.columns
    filter := if condition = "" then none else some condition
    sql := Sql.render d (head ++ tail)
    args := args }

/-- Whether a text begins with the word `FROM`, in any letter case, and a blank. -/
def beginsWithFrom (cs : List Char) : Bool :=
  Text.opensWith "from".toList cs && (cs.drop 4).head?.any Text.isBlank

/-- Reads the columns of a mapping by a statement of the caller. -/
def selectSql (m : Mapping) (d : Dialect) (sql : String) (args : List Value) :
    Except Error Statement := do
  let text := Text.trimStart sql
  let written ← withPlaceholders text d 0 args.length
  let head : List Fragment :=
    if beginsWithFrom text.toList then .text "SELECT " :: columnList m.columns ++ [.text " "]
    else []
  return {
    kind := .select
    table := ""
    columns := m.columns
    filter := some sql
    sql := Sql.render d (head ++ [.text written])
    args := args }

end TableRecords.Statement
