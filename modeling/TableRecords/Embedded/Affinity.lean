import TableRecords.Decimal.Rounded
import TableRecords.Embedded.Cell
import TableRecords.IntKind

/-!
# Affinities

The declared type of a column gives it an affinity: the form that cells take where they can do
so without loss. `store` brings a cell into the form of its column, and `forComparison` two cells
that are compared into a common form.
-/

namespace TableRecords.Embedded

/-- The form that cells of a column take. -/
inductive Affinity where
  /-- As they are. -/
  | none
  | text
  | numeric
  | integer
  | real
  deriving DecidableEq, Repr, Inhabited

namespace Affinity

/-- The affinity of a declared type: the first of the rules whose word is part of it. -/
def ofTypeName (name : String) : Affinity :=
  let has := fun (word : String) => Text.contains word.toList (Text.asciiLower name).toList
  if has "int" then integer
  else if has "char" ∨ has "clob" ∨ has "text" then text
  else if has "blob" ∨ name = "" then none
  else if has "real" ∨ has "floa" ∨ has "doub" then real
  else numeric

/-- Whether cells of the affinity are numbers where they can be. -/
def isNumeric : Affinity → Bool
  | numeric | integer | real => true
  | _ => false

end Affinity

namespace Cell

/-! ## Numbers as text -/

/-- A real as text: up to 15 digits, positional while the point stands at most 15 digits to the
right or 3 zeros to the left, and always with a fraction. -/
def realText (x : Float) : List Char :=
  let sign := if x < 0 then ['-'] else []
  if x.isInf then sign ++ ['I', 'n', 'f']
  else if x == 0 then ['0', '.', '0']
  else
    let (c, s) := Decimal.rounded 15 x
    let digits := Nat.toDigits 10 c
    let point : Int := digits.length + s
    let withPart := fun (whole part : List Char) =>
      whole ++ '.' :: (if part.isEmpty then ['0'] else part)
    sign ++
      if 0 < point ∧ point ≤ 15 then
        let n := point.toNat
        withPart (digits.take n ++ List.replicate (n - digits.length) '0') (digits.drop n)
      else if -4 < point ∧ point ≤ 0 then
        withPart ['0'] (List.replicate (-point).toNat '0' ++ digits)
      else
        let e := point - 1
        let ds := Nat.toDigits 10 e.natAbs
        withPart (digits.take 1) (digits.drop 1)
          ++ 'e' :: (if e < 0 then '-' else '+') :: (if ds.length < 2 then '0' :: ds else ds)

/-- The text that a number becomes. -/
def numberText : Cell → Cell
  | integer n => ofString (toString n.toInt)
  | real x => ofString (String.ofList (realText x))
  | c => c

/-! ## Text as numbers -/

/-- A number at the front of a text. -/
structure Numeral where
  negative : Bool
  /-- The digits without their point. -/
  digits : Nat
  exponent : Int
  /-- Whether it is written without point and exponent. -/
  isWhole : Bool
  /-- What stands behind it. -/
  rest : List Char

/-- Digits as a number. -/
def ofDigits (ds : List Char) : Nat := ds.foldl (fun n c => 10 * n + (c.toNat - 48)) 0

/-- Reads an exponent, if one stands at the front. -/
def takeExponent (cs : List Char) : Option (Int × List Char) :=
  match cs with
  | c :: rest =>
    if c ≠ 'e' ∧ c ≠ 'E' then .none
    else
      let (negative, rest) := match rest with
        | '-' :: rest => (true, rest)
        | '+' :: rest => (false, rest)
        | rest => (false, rest)
      let ds := rest.takeWhile Char.isDigit
      if ds.isEmpty then .none
      else
        let e : Int := ofDigits ds
        some (if negative then -e else e, rest.drop ds.length)
  | [] => .none

/-- Reads a number at the front of a text; blanks may stand before it. -/
def takeNumeral (cs : List Char) : Option Numeral :=
  let cs := cs.dropWhile isSpace
  let (negative, cs) := match cs with
    | '-' :: cs => (true, cs)
    | '+' :: cs => (false, cs)
    | cs => (false, cs)
  let whole := cs.takeWhile Char.isDigit
  let cs := cs.drop whole.length
  let (hasPoint, part, cs) := match cs with
    | '.' :: rest =>
      let part := rest.takeWhile Char.isDigit
      (true, part, rest.drop part.length)
    | cs => (false, [], cs)
  if whole.isEmpty ∧ part.isEmpty then .none
  else
    let (hasExponent, e, cs) := match takeExponent cs with
      | some (e, cs) => (true, e, cs)
      | .none => (false, 0, cs)
    some ⟨negative, ofDigits (whole ++ part), e - part.length, !hasPoint && !hasExponent, cs⟩
where
  /-- A blank of ASCII. -/
  isSpace (c : Char) : Bool := c == ' ' || ('\t' ≤ c && c ≤ '\x0d')

/-- The real of a numeral. -/
def Numeral.toReal (n : Numeral) : Float :=
  let point : Int := n.exponent + (Nat.toDigits 10 n.digits).length
  let x : Float :=
    if n.digits = 0 ∨ point < -400 then 0
    else if 400 < point then 1 / 0
    else Float.ofScientific n.digits (n.exponent < 0) n.exponent.natAbs
  if n.negative then -x else x

/-- The integer of a numeral, if it is written as one and has 64 bits. -/
def Numeral.toInteger? (n : Numeral) : Option Int64 :=
  let v : Int := if n.negative then -n.digits else n.digits
  if n.isWhole ∧ IntKind.int64.Holds v then some (Int64.ofInt v) else .none

/-- An integer for a real that is one, the two ends of the range excepted. -/
def wholeReal (x : Float) : Cell :=
  if -9223372036854775808.0 < x ∧ x < 9223372036854775808.0
      ∧ Float.ofInt x.toInt64.toInt == x then
    integer x.toInt64
  else real x

/-- The characters of a text, as far as only ASCII matters. -/
def latin (bytes : ByteArray) : List Char :=
  bytes.data.toList.map fun b => Char.ofNat b.toNat

/-- The number that a text is from its first to its last character, or else the text. -/
def textNumber (bytes : ByteArray) : Cell :=
  match takeNumeral (latin bytes) with
  | some n =>
    if n.rest.all takeNumeral.isSpace then
      match n.toInteger? with
      | some i => integer i
      | .none => wholeReal n.toReal
    else text bytes
  | .none => text bytes

/-- The real that a cell stands for as an operand; what is no number counts as zero. -/
def asReal : Cell → Float
  | integer n => Float.ofInt n.toInt
  | real x => x
  | text b | blob b => ((takeNumeral (latin b)).map Numeral.toReal).getD 0
  | null => 0

/-! ## Conversions -/

/-- The form of a cell in a column of the affinity. -/
def store (a : Affinity) (c : Cell) : Cell :=
  match a, c with
  | .none, c => c
  | .text, c => c.numberText
  | .real, c =>
    match c with
    | text b =>
      match textNumber b with
      | integer n => real (Float.ofInt n.toInt)
      | c => c
    | integer n => real (Float.ofInt n.toInt)
    | real x => real (if x == 0 then 0 else x)
    | c => c
  | _, text b => textNumber b
  | _, real x => wholeReal x
  | _, c => c

/-- A text operand that is compared with a number, as a number where it is one. -/
def asNumber : Cell → Cell
  | text b => textNumber b
  | c => c

/-- Two operands in the form in which they are compared. -/
def forComparison (a : Affinity) (x : Cell) (b : Affinity) (y : Cell) : Cell × Cell :=
  if a.isNumeric ∧ !b.isNumeric then (x, y.asNumber)
  else if b.isNumeric ∧ !a.isNumeric then (x.asNumber, y)
  else if a.isNumeric then (x, y)
  else if a = .text ∧ b = .none then (x, y.numberText)
  else if b = .text ∧ a = .none then (x.numberText, y)
  else (x, y)

/-- A cell as an explicit conversion to a type gives it. -/
def cast (a : Affinity) (c : Cell) : Cell :=
  match a, c with
  | _, null => null
  | .none, text b => blob b
  | .none, blob b => blob b
  | .none, c => match c.numberText with
    | text b => blob b
    | c => c
  | .text, blob b => text b
  | .text, c => c.numberText
  | .integer, c => toInteger c
  | .real, c => real c.asReal
  | .numeric, text b | .numeric, blob b => toNumber b
  | .numeric, c => c
where
  /-- The integer at the front of a text, or the whole part of a real; clamped to 64 bits. -/
  toInteger : Cell → Cell
    | integer n => integer n
    | real x => integer x.toInt64
    | text b | blob b =>
      let cs := (latin b).dropWhile takeNumeral.isSpace
      let (negative, cs) := match cs with
        | '-' :: cs => (true, cs)
        | '+' :: cs => (false, cs)
        | cs => (false, cs)
      let v : Int := ofDigits (cs.takeWhile Char.isDigit)
      let v := if negative then -v else v
      integer (Int64.ofInt (max IntKind.int64.min (min IntKind.int64.max v)))
    | null => null
  /-- The number at the front of a text. -/
  toNumber (b : ByteArray) : Cell :=
    match takeNumeral (latin b) with
    | some n =>
      match n.toInteger? with
      | some i => integer i
      | .none => wholeReal n.toReal
    | .none => integer 0

end Cell
end TableRecords.Embedded
