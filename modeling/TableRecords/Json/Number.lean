import TableRecords.Json.Basic

/-!
# Reading JSON numbers

The digits of a number are collected into a significand of at most 64 bits; digits that no
longer fit are dropped, each digit before the point raising the exponent instead. A number
without point and exponent whose digits all fit is an integer if 64 bits can hold it. Any other
number is the significand scaled by its power of ten in binary64 arithmetic, and one beyond the
range of binary64 is no number at all.
-/

namespace TableRecords.Json

/-- The parts of a number as written; the digits are decimal values. -/
structure NumberSource where
  negative : Bool
  whole : List Nat
  part : Option (List Nat)
  /-- The exponent: whether it is negative, and its digits. -/
  exponent : Option (Bool × List Nat)
  deriving DecidableEq

/-- The largest significand. -/
def maxSignificand : Nat := 0xffffffffffffffff

/-- Adds digits to a significand while they fit. Gives the digits that were left over. -/
def collect (significand : Nat) : List Nat → Nat × List Nat
  | [] => (significand, [])
  | d :: rest =>
    if significand * 10 + d ≤ maxSignificand then collect (significand * 10 + d) rest
    else (significand, d :: rest)

/-- The natural number that a list of decimal digits writes. -/
def ofDigits (digits : List Nat) : Nat := digits.foldl (fun n d => n * 10 + d) 0

/-- `f · 10^e` in binary64 arithmetic, dividing by `1e308` while the exponent is below `-308`.
Nothing if the result overflows. -/
def scale (f : Float) (e : Int) : Option Float :=
  if 0 ≤ e then
    if e ≤ 308 then
      let r := f * Float.ofScientific 1 false e.toNat
      if r.isInf then none else some r
    else if f == 0 then some f else none
  else if -308 ≤ e then some (f / Float.ofScientific 1 false (-e).toNat)
  else if f == 0 then some f
  else scale (f / Float.ofScientific 1 false 308) (e + 308)
termination_by (-e).toNat
decreasing_by omega

/-- An integer significand with a sign, as a number: negative zero and what 64 bits with sign
cannot hold are binary64. -/
def integerNumber (negative : Bool) (significand : Nat) : JsonNumber :=
  if negative then
    if 0 < significand ∧ significand ≤ 0x8000000000000000 then .integer (-significand)
    else .real (-(Float.ofNat significand))
  else .integer significand

/-- The number that the parts write. -/
def NumberSource.number? (n : NumberSource) : Option JsonNumber :=
  let (whole, dropped) := collect 0 n.whole
  if n.part.isNone ∧ n.exponent.isNone ∧ dropped.isEmpty then
    some (integerNumber n.negative whole)
  else
    let part := n.part.getD []
    let (significand, left) := collect whole part
    let written : Int := match n.exponent with
      | none => 0
      | some (negative, digits) => if negative then -(ofDigits digits) else ofDigits digits
    let e : Int := dropped.length - (part.length - left.length : Nat) + written
    (scale (Float.ofNat significand) e).map fun x => .real (if n.negative then -x else x)

end TableRecords.Json
