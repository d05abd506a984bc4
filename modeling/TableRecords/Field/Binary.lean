/-!
# Binary numbers

Integers as numbers of the formats binary64 and binary32, and the step from either format to the
other. The result is the nearest number of the format, the even one of two that are equally near;
what is too large for binary32 becomes infinite.
-/

namespace TableRecords.Binary

open Float.Model (Format UnpackedFloat)

/-- A number, rounded to a format. -/
def rounded (format : Format) : UnpackedFloat → UnpackedFloat
  | .finite sign mantissa exponent _ => .round format sign mantissa exponent
  | x => x

/-- The binary64 number of an integer. -/
def ofInt64 (n : Int64) : Float := .ofModel (.ofInt64 n)

/-- The binary32 number of an integer. -/
def narrowOfInt64 (n : Int64) : Float32 := .ofModel (.ofInt64 n)

/-- A binary32 number as a binary64 number, which is exact. -/
def widen (x : Float32) : Float := .ofModel (.pack (rounded .binary64 x.toModel.unpack))

/-- A binary64 number as a binary32 number. -/
def narrow (x : Float) : Float32 := .ofModel (.pack (rounded .binary32 x.toModel.unpack))

end TableRecords.Binary
