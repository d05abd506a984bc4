import TableRecords.Decimal.Shortest

/-!
# Rounded decimals

The decimal of a given number of digits that is nearest to a binary64 number, computed exactly;
a tie goes away from zero.
-/

namespace TableRecords.Decimal

/-- The part of a number at the grid `10^s`, rounded to the nearest, a tie upwards. -/
def Binary.roundAt (b : Binary) (s : Int) : Nat :=
  let low := b.floorAt s
  match compareScaled (2 * b.value) b.exponent (2 * low + 1) s with
  | .lt => low
  | _ => low + 1

/-- The digits and the decimal exponent of the magnitude of a finite non-zero number, rounded to
`count` digits. Zeros at the end are dropped. -/
def rounded (count : Nat) (x : Float) : Nat × Int :=
  let b := Binary.ofBits x.toBits
  let s := b.point - count
  stripZeros (b.roundAt s) s

end TableRecords.Decimal
