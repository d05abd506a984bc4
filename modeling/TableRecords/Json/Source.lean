import TableRecords.Json.Number

/-!
# JSON texts

`Source.parse` reads bytes by the grammar of JSON alone. What a reader may refuse beyond that
(numbers out of range, strings that are not UTF-8 or hold half a surrogate pair, nesting that is
too deep) is not judged here: `Json.Schema` judges the parts it keeps and lets the rest be.
-/

namespace TableRecords.Json

/-- One unit of a string as written: a byte, a character escape, or a `\u` escape. -/
inductive StringUnit where
  | byte (b : UInt8)
  | char (c : Char)
  | code (n : Nat)
  deriving DecidableEq

/-- A JSON text, read but not judged. -/
inductive Source where
  | null
  | bool (b : Bool)
  | number (n : NumberSource)
  | text (units : List StringUnit)
  | array (items : List Source)
  | object (members : List (List StringUnit × Source))
  deriving Inhabited

namespace Source

/-- Drops the blanks of JSON at the front. -/
def skipBlanks (bs : List UInt8) : List UInt8 :=
  bs.dropWhile fun b => b == 0x20 || b == 0x0a || b == 0x09 || b == 0x0d

/-- The value of a decimal digit. -/
def decimalDigit? (b : UInt8) : Option Nat :=
  if 0x30 ≤ b ∧ b ≤ 0x39 then some (b.toNat - 0x30) else none

/-- The value of a hexadecimal digit. -/
def hexDigit? (b : UInt8) : Option Nat :=
  if 0x30 ≤ b ∧ b ≤ 0x39 then some (b.toNat - 0x30)
  else if 0x61 ≤ b ∧ b ≤ 0x66 then some (b.toNat - 0x57)
  else if 0x41 ≤ b ∧ b ≤ 0x46 then some (b.toNat - 0x37)
  else none

/-- The decimal digits at the front and what follows them. -/
def takeDigits : List UInt8 → List Nat × List UInt8
  | [] => ([], [])
  | b :: rest =>
    match decimalDigit? b with
    | some d => let (ds, tail) := takeDigits rest; (d :: ds, tail)
    | none => ([], b :: rest)

/-- At least one decimal digit. -/
def takeDigits1 (bs : List UInt8) : Option (List Nat × List UInt8) :=
  match takeDigits bs with
  | ([], _) => none
  | r => some r

/-- The fraction behind the whole part, if there is one. -/
def takePart : List UInt8 → Option (Option (List Nat) × List UInt8)
  | 0x2e :: rest => (takeDigits1 rest).map fun (ds, tail) => (some ds, tail)
  | bs => some (none, bs)

/-- The exponent of a number, if there is one. -/
def takeExponent : List UInt8 → Option (Option (Bool × List Nat) × List UInt8)
  | b :: rest =>
    if b == 0x65 || b == 0x45 then
      match rest with
      | 0x2b :: rest => (takeDigits1 rest).map fun (ds, tail) => (some (false, ds), tail)
      | 0x2d :: rest => (takeDigits1 rest).map fun (ds, tail) => (some (true, ds), tail)
      | rest => (takeDigits1 rest).map fun (ds, tail) => (some (false, ds), tail)
    else some (none, b :: rest)
  | [] => some (none, [])

/-- A number without its sign. A whole part of several digits does not begin with zero. -/
def takeNumber (negative : Bool) (bs : List UInt8) : Option (NumberSource × List UInt8) := do
  let (whole, bs) ← takeDigits1 bs
  if whole.head? = some 0 ∧ 1 < whole.length then none
  let (part, bs) ← takePart bs
  let (exponent, bs) ← takeExponent bs
  return (⟨negative, whole, part, exponent⟩, bs)

/-- The units of a string behind its opening quote, and what follows the closing one. -/
def takeString : List UInt8 → Option (List StringUnit × List UInt8)
  | [] => none
  | 0x22 :: rest => some ([], rest)
  | 0x5c :: 0x75 :: a :: b :: c :: d :: rest => do
    let a ← hexDigit? a
    let b ← hexDigit? b
    let c ← hexDigit? c
    let d ← hexDigit? d
    let (us, tail) ← takeString rest
    return (.code (a * 4096 + b * 256 + c * 16 + d) :: us, tail)
  | 0x5c :: e :: rest => do
    let c ← match e with
      | 0x22 => some '\x22'
      | 0x5c => some '\\'
      | 0x2f => some '/'
      | 0x62 => some '\x08'
      | 0x66 => some '\x0c'
      | 0x6e => some '\n'
      | 0x72 => some '\x0d'
      | 0x74 => some '\t'
      | _ => none
    let (us, tail) ← takeString rest
    return (.char c :: us, tail)
  | b :: rest =>
    if b < 0x20 ∨ b = 0x5c then none
    else do
      let (us, tail) ← takeString rest
      return (.byte b :: us, tail)

mutual

/-- A value. `fuel` bounds the calls; every item costs a byte, so the length of the text is
enough. -/
def takeValue : (fuel : Nat) → List UInt8 → Option (Source × List UInt8)
  | 0, _ => none
  | fuel + 1, bs =>
    match skipBlanks bs with
    | 0x6e :: 0x75 :: 0x6c :: 0x6c :: rest => some (.null, rest)
    | 0x74 :: 0x72 :: 0x75 :: 0x65 :: rest => some (.bool true, rest)
    | 0x66 :: 0x61 :: 0x6c :: 0x73 :: 0x65 :: rest => some (.bool false, rest)
    | 0x22 :: rest => (takeString rest).map fun (us, tail) => (.text us, tail)
    | 0x2d :: rest => (takeNumber true rest).map fun (n, tail) => (.number n, tail)
    | 0x5b :: rest =>
      match skipBlanks rest with
      | 0x5d :: tail => some (.array [], tail)
      | rest => (takeItems fuel rest).map fun (items, tail) => (.array items, tail)
    | 0x7b :: rest =>
      match skipBlanks rest with
      | 0x7d :: tail => some (.object [], tail)
      | rest => (takeMembers fuel rest).map fun (members, tail) => (.object members, tail)
    | rest => (takeNumber false rest).map fun (n, tail) => (.number n, tail)

/-- The items of an array that is not empty, up to its closing bracket. -/
def takeItems : (fuel : Nat) → List UInt8 → Option (List Source × List UInt8)
  | 0, _ => none
  | fuel + 1, bs => do
    let (item, bs) ← takeValue fuel bs
    match skipBlanks bs with
    | 0x2c :: rest =>
      let (items, tail) ← takeItems fuel rest
      return (item :: items, tail)
    | 0x5d :: tail => return ([item], tail)
    | _ => none

/-- The members of an object that is not empty, up to its closing brace. -/
def takeMembers : (fuel : Nat) → List UInt8 → Option (List (List StringUnit × Source) × List UInt8)
  | 0, _ => none
  | fuel + 1, bs => do
    let (key, bs) ← match skipBlanks bs with
      | 0x22 :: rest => takeString rest
      | _ => none
    let (value, bs) ← match skipBlanks bs with
      | 0x3a :: rest => takeValue fuel rest
      | _ => none
    match skipBlanks bs with
    | 0x2c :: rest =>
      let (members, tail) ← takeMembers fuel rest
      return ((key, value) :: members, tail)
    | 0x7d :: tail => return ([(key, value)], tail)
    | _ => none

end

/-- Reads a whole text. -/
def parse (bytes : ByteArray) : Option Source :=
  let bs := bytes.data.toList
  match takeValue (2 * bs.length + 2) bs with
  | some (value, rest) => if (skipBlanks rest).isEmpty then some value else none
  | none => none

/-- The bytes of a character in UTF-8. -/
def charBytes (c : Char) : List UInt8 := (String.singleton c).toUTF8.data.toList

/-- The bytes of a string: a `\u` escape of a surrogate needs its other half next to it. -/
def unitBytes? : List StringUnit → Option (List UInt8)
  | [] => some []
  | .byte b :: rest => (unitBytes? rest).map (b :: ·)
  | .char c :: rest => (unitBytes? rest).map (charBytes c ++ ·)
  | .code n :: rest =>
    if 0xdc00 ≤ n ∧ n ≤ 0xdfff then none
    else if 0xd800 ≤ n ∧ n ≤ 0xdbff then
      match rest with
      | .code m :: rest =>
        if 0xdc00 ≤ m ∧ m ≤ 0xdfff then
          let c := Char.ofNat (0x10000 + (n - 0xd800) * 1024 + (m - 0xdc00))
          (unitBytes? rest).map (charBytes c ++ ·)
        else none
      | _ => none
    else (unitBytes? rest).map (charBytes (Char.ofNat n) ++ ·)

/-- The text of a string, if its bytes are UTF-8. -/
def string? (units : List StringUnit) : Option String := do
  String.fromUTF8? (ByteArray.mk (← unitBytes? units).toArray)

end Source
end TableRecords.Json
