/-!
# Integer kinds

The integer types a field can have: 8 to 64 bits or the machine's word of 64 bits, with sign or
without, each with the range it holds. Zero lies in every range.
-/

namespace TableRecords

/-- An integer type of fixed width. -/
inductive IntKind where
  | int8
  | int16
  | int32
  | int64
  | isize
  | uint8
  | uint16
  | uint32
  | uint64
  | usize
  deriving DecidableEq, Repr

namespace IntKind

/-- The name that messages use. -/
def name : IntKind → String
  | int8 => "i8"
  | int16 => "i16"
  | int32 => "i32"
  | int64 => "i64"
  | isize => "isize"
  | uint8 => "u8"
  | uint16 => "u16"
  | uint32 => "u32"
  | uint64 => "u64"
  | usize => "usize"

/-- The least number of the kind. -/
def min : IntKind → Int
  | int8 => -128
  | int16 => -32768
  | int32 => -2147483648
  | int64 | isize => -9223372036854775808
  | uint8 | uint16 | uint32 | uint64 | usize => 0

/-- The greatest number of the kind. -/
def max : IntKind → Int
  | int8 => 127
  | int16 => 32767
  | int32 => 2147483647
  | int64 | isize => 9223372036854775807
  | uint8 => 255
  | uint16 => 65535
  | uint32 => 4294967295
  | uint64 | usize => 18446744073709551615

/-- Whether the kind holds a number. -/
def Holds (k : IntKind) (n : Int) : Prop := k.min ≤ n ∧ n ≤ k.max

instance (k : IntKind) (n : Int) : Decidable (k.Holds n) :=
  inferInstanceAs (Decidable (k.min ≤ n ∧ n ≤ k.max))

theorem holds_zero (k : IntKind) : k.Holds 0 := by cases k <;> decide

/-- The numbers of a kind. -/
def Carrier (k : IntKind) : Type := { n : Int // k.Holds n }

instance (k : IntKind) : DecidableEq k.Carrier := inferInstanceAs (DecidableEq { n // k.Holds n })

end IntKind
end TableRecords
