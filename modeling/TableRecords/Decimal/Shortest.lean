/-!
# Shortest decimals

The decimal with the fewest digits that reads back as a given binary64 number, computed
exactly. A positive number is `m · 2^q`; the reals that round to it form an interval around
it, closed when `m` is even. For 1, 2, … 17 digits, `shortest` tests the two neighbours of the
number on that decimal grid: the first grid with a hit wins, of two hits the nearer, and a tie
goes to the even digit.
-/

namespace TableRecords.Decimal

/-- A finite positive binary64 number `m · 2^q` with the interval that rounds to it.
All three bounds are in units of `2^(q-2)`. -/
structure Binary where
  lower : Nat
  value : Nat
  upper : Nat
  /-- The binary exponent of the unit. -/
  exponent : Int
  /-- Whether the ends of the interval round to the number too. -/
  closed : Bool

/-- Reads the magnitude of a finite binary64 number off its bits; the sign is left out. -/
def Binary.ofBits (bits : UInt64) : Binary :=
  let fraction : Nat := bits.toNat % Nat.pow 2 52
  let field : Nat := bits.toNat / Nat.pow 2 52 % Nat.pow 2 11
  let m : Nat := if field = 0 then fraction else fraction + Nat.pow 2 52
  let q : Int := if field = 0 then -1074 else (field : Int) - 1075
  let below := if fraction = 0 ∧ 1 < field then 1 else 2
  ⟨4 * m - below, 4 * m, 4 * m + 2, q - 2, m % 2 = 0⟩

/-- The sign of `a · 2^e - c · 10^s`, by clearing negative exponents. -/
def compareScaled (a : Nat) (e : Int) (c : Nat) (s : Int) : Ordering :=
  compare (a * Nat.pow 2 e.toNat * Nat.pow 10 (-s).toNat)
    (c * Nat.pow 10 s.toNat * Nat.pow 2 (-e).toNat)

/-- Whether the decimal `c · 10^s` rounds to the number. -/
def Binary.rounds (b : Binary) (c : Nat) (s : Int) : Bool :=
  match compareScaled b.lower b.exponent c s, compareScaled b.upper b.exponent c s with
  | .lt, .gt => true
  | .eq, _ => b.closed
  | _, .eq => b.closed
  | _, _ => false

/-- The decimal part of the number at the grid `10^s`, rounded down. -/
def Binary.floorAt (b : Binary) (s : Int) : Nat :=
  b.value * Nat.pow 2 b.exponent.toNat * Nat.pow 10 (-s).toNat /
    (Nat.pow 10 s.toNat * Nat.pow 2 (-b.exponent).toNat)

/-- How many decimal digits a natural number has; zero has one. -/
def digitCount (n : Nat) : Nat := (Nat.toDigits 10 n).length

/-- The position of the decimal point: the least `k` with `value < 10^k`. -/
def Binary.point (b : Binary) : Int :=
  let top := digitCount (b.value * Nat.pow 2 b.exponent.toNat)
  let bottom := digitCount (Nat.pow 2 (-b.exponent).toNat)
  let k : Int := (top : Int) - bottom
  if compareScaled b.value b.exponent 1 k == .lt then k else k + 1

/-- Of two neighbouring decimals on one grid that both round to the number, the nearer. -/
def Binary.nearer (b : Binary) (low : Nat) (s : Int) : Nat :=
  match compareScaled (2 * b.value) b.exponent (2 * low + 1) s with
  | .lt => low
  | .gt => low + 1
  | .eq => if low % 2 = 0 then low else low + 1

/-- The decimal with `digits` digits that rounds to the number, if one does. -/
def Binary.onGrid (b : Binary) (s : Int) : Option Nat :=
  let low := b.floorAt s
  match b.rounds low s, b.rounds (low + 1) s with
  | true, true => some (b.nearer low s)
  | true, false => some low
  | false, true => some (low + 1)
  | false, false => none

/-- Searches the grids from `digits` digits on; `tries` bounds how many are left. -/
def Binary.search (b : Binary) (point : Int) (digits : Nat) : (tries : Nat) → Nat × Int
  | 0 => (b.floorAt (point - digits), point - digits)
  | tries + 1 =>
    match b.onGrid (point - digits) with
    | some c => (c, point - digits)
    | none => b.search point (digits + 1) tries

/-- Moves trailing zeros of the digits into the exponent. -/
def stripZeros (c : Nat) (s : Int) : Nat × Int :=
  if h : c ≠ 0 ∧ c % 10 = 0 then stripZeros (c / 10) (s + 1) else (c, s)
termination_by c
decreasing_by omega

/-- The digits and the decimal exponent of the shortest decimal of a finite non-zero number's
magnitude: the number is about `digits · 10^exponent`. -/
def shortest (x : Float) : Nat × Int :=
  let b := Binary.ofBits x.toBits
  let (c, s) := b.search b.point 1 17
  stripZeros c s

end TableRecords.Decimal
