import TableRecords.Embedded.Boundary

/-!
# Stored cells

What the engine keeps in a column of a row. A cell differs from a value in that a text is a
string of bytes that need not be UTF-8. A value that is bound becomes a cell, where NaN becomes
NULL, and a cell that is read becomes a value.
-/

namespace TableRecords.Embedded

/-- What a column of a row holds. -/
inductive Cell where
  | null
  | integer (n : Int64)
  | real (x : Float)
  | text (bytes : ByteArray)
  | blob (bytes : ByteArray)
  deriving DecidableEq, Inhabited

namespace Cell

/-- The cell that a value is bound as. -/
def bound : Value → Cell
  | .null => null
  | .integer n => integer n
  | .real x => real x
  | .text s => text s.toUTF8
  | .blob b => blob b

/-- What the engine takes a bound cell for. -/
def taken : Cell → Cell
  | real x => if x.isNaN then null else real x
  | c => c

/-- The cell of a value that is bound. -/
def ofValue (v : Value) : Cell := (bound v).taken

/-- The value that is read from a cell. -/
def toValue : Cell → Value
  | null => .null
  | integer n => .integer n
  | real x => .real x
  | text b => .ofTextBytes b
  | blob b => .blob b

/-- A text. -/
def ofString (s : String) : Cell := text s.toUTF8

/-- One for true and zero for false. -/
def ofBool (b : Bool) : Cell := integer (if b then 1 else 0)

/-- Whether a cell is NULL. -/
def isNull : Cell → Bool
  | null => true
  | _ => false

/-! ## Order -/

/-- The order of byte strings: by the first byte that differs, a beginning first. -/
def compareBytes : List UInt8 → List UInt8 → Ordering
  | [], [] => .eq
  | [], _ => .lt
  | _, [] => .gt
  | a :: as, b :: bs => if a < b then .lt else if b < a then .gt else compareBytes as bs

/-- The order of an integer and a real, exactly. -/
def compareMixed (n : Int64) (x : Float) : Ordering :=
  if x < -9223372036854775808.0 then .gt
  else if 9223372036854775808.0 ≤ x then .lt
  else
    let whole := x.toInt64
    if n < whole then .lt
    else if whole < n then .gt
    else
      let y := Float.ofInt n.toInt
      if y < x then .lt else if x < y then .gt else .eq

/-- The classes of cells in their order: NULL, numbers, texts, blobs. -/
def rank : Cell → Nat
  | null => 0
  | integer _ | real _ => 1
  | text _ => 2
  | blob _ => 3

/-- The order of cells: by class, numbers by their value, texts and blobs by their bytes. -/
def order : Cell → Cell → Ordering
  | integer m, integer n => if m < n then .lt else if n < m then .gt else .eq
  | integer n, real x => compareMixed n x
  | real x, integer n => (compareMixed n x).swap
  | real x, real y => if x < y then .lt else if y < x then .gt else .eq
  | text a, text b => compareBytes a.data.toList b.data.toList
  | blob a, blob b => compareBytes a.data.toList b.data.toList
  | a, b => compare a.rank b.rank

end Cell
end TableRecords.Embedded
