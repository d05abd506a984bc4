import TableRecords.Error
import TableRecords.Text.Ascii
import TableRecords.Text.Blank

/-!
# The boundary to the embedded engine

How result codes of the engine become kinds of errors, how texts it stores become values, and
which statements only read by their first word.
-/

namespace TableRecords

/-- The kind of a failure with a result code. The low byte of a code names the class and the
rest refines it. -/
def AdapterErrorKind.ofResultCode (code : Int) : AdapterErrorKind :=
  match code % 256 with
  | 5 | 6 => .busy
  | 9 => .interrupted
  | 19 => .constraint
  | _ => .other

/-- The value of a stored text. Bytes that are no UTF-8 are a blob. -/
def Value.ofTextBytes (bytes : ByteArray) : Value :=
  match String.fromUTF8? bytes with
  | some s => .text s
  | none => .blob bytes

/-- Whether a statement may run on a connection that only reads: it begins with `SELECT` or
`WITH` and nowhere says `RETURNING`. -/
def isReadOnly (sql : String) : Bool :=
  let head := Text.trimFront sql.toList
  (Text.opensWith "select".toList head || Text.opensWith "with".toList head)
    && !Text.contains "returning".toList (sql.toList.map Char.toLower)

end TableRecords
