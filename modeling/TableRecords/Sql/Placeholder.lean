import TableRecords.Sql.Piece

/-!
# Placeholders

`withPlaceholders` puts a text of a caller in a dialect: the single marks become the
dialect's placeholders in order, a doubled mark becomes a question mark, and all else stays. It
refuses a text whose marks are not as many as its arguments.
-/

namespace TableRecords.Sql

/-- How many arguments the pieces stand for. -/
def markCount (pieces : List Piece) : Nat := pieces.countP (· == .mark)

/-- The pieces in a dialect; the next mark gets placeholder `next`. -/
def renderPieces (d : Dialect) : (next : Nat) → List Piece → List Char
  | _, [] => []
  | next, .mark :: rest => d.placeholder next ++ renderPieces d (next + 1) rest
  | next, .escaped :: rest => '?' :: renderPieces d next rest
  | next, .span cs :: rest => cs ++ renderPieces d next rest
  | next, .char c :: rest => c :: renderPieces d next rest

/-- A text of a caller in a dialect, when `offset` placeholders stand before it. -/
def withPlaceholders (sql : String) (d : Dialect) (offset argCount : Nat) : Except Error String :=
  let pieces := cut d sql.toList
  if markCount pieces = argCount then
    .ok (String.ofList (renderPieces d (offset + 1) pieces))
  else
    .error (.invalidArgument
      s!"statement has {markCount pieces} placeholders but {argCount} arguments were given")

end TableRecords.Sql
