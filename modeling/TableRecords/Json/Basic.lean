import TableRecords.Decimal.Shortest
import TableRecords.Text.Quoted

/-!
# JSON values

JSON values and their compact text. An object is a list of members in the order in which they
are written; `insertMember` keeps a list sorted by key, and a key set twice holds the last value.
-/

namespace TableRecords

/-- A JSON number: an integer of at most 64 bits, with or without sign, or a binary64 number. -/
inductive JsonNumber where
  | integer (n : Int)
  | real (x : Float)
  deriving DecidableEq

/-- A JSON value. -/
inductive Json where
  | null
  | bool (b : Bool)
  | number (n : JsonNumber)
  | text (s : String)
  | array (items : List Json)
  | object (members : List (String × Json))
  deriving Inhabited

namespace Json

/-- Sets a member of a list sorted by key. -/
def insertMember (key : String) (value : Json) : List (String × Json) → List (String × Json)
  | [] => [(key, value)]
  | (k, v) :: rest =>
    if key < k then (key, value) :: (k, v) :: rest
    else if key = k then (key, value) :: rest
    else (k, v) :: insertMember key value rest

/-- The members of an object written in the given order: sorted, the last of a key kept. -/
def ofMembers (members : List (String × Json)) : List (String × Json) :=
  members.foldl (fun acc m => insertMember m.1 m.2 acc) []

/-- Two hexadecimal digits. -/
def twoHexDigits (n : Nat) : List Char :=
  [Nat.digitChar (n / 16 % 16), Nat.digitChar (n % 16)]

/-- One character inside a JSON string. -/
def escapeChar (c : Char) : List Char :=
  match c with
  | '\x22' => ['\\', '\x22']
  | '\\' => ['\\', '\\']
  | '\x08' => ['\\', 'b']
  | '\x0c' => ['\\', 'f']
  | '\n' => ['\\', 'n']
  | '\x0d' => ['\\', 'r']
  | '\t' => ['\\', 't']
  | c => if c.toNat < 0x20 then '\\' :: 'u' :: '0' :: '0' :: twoHexDigits c.toNat else [c]

/-- A text as a JSON string. -/
def quote (s : String) : String :=
  String.ofList ('\x22' :: s.toList.flatMap escapeChar ++ ['\x22'])

/-- Digits with a decimal point behind the first `point` of them, where `0 < point`. -/
def splitDigits (digits : List Char) (point : Nat) : List Char :=
  let whole := digits.take point ++ List.replicate (point - digits.length) '0'
  let part := digits.drop point
  whole ++ '.' :: (if part.isEmpty then ['0'] else part)

/-- A decimal exponent with its sign. -/
def exponentText (e : Int) : List Char :=
  'e' :: (if e < 0 then '-' else '+') :: Nat.toDigits 10 e.natAbs

/-- Digits `d` and exponent `s` of the decimal `d · 10^s`: positional while the decimal point
stands at most 16 digits to the right or 4 zeros to the left, with an exponent otherwise. -/
def decimalText (digits : List Char) (s : Int) : List Char :=
  let point : Int := digits.length + s
  if 0 < point ∧ point ≤ 16 then splitDigits digits point.toNat
  else if -5 < point ∧ point ≤ 0 then
    '0' :: '.' :: List.replicate (-point).toNat '0' ++ digits
  else
    match digits with
    | [d] => d :: exponentText (point - 1)
    | d :: rest => d :: '.' :: rest ++ exponentText (point - 1)
    | [] => []

/-- A finite binary64 number in the fewest digits that read back. -/
def realText (x : Float) : String :=
  let sign := if x.toBits.toNat < 0x8000000000000000 then [] else ['-']
  if x == 0 then String.ofList (sign ++ ['0', '.', '0'])
  else
    let (c, s) := Decimal.shortest x
    String.ofList (sign ++ decimalText (Nat.toDigits 10 c) s)

/-- A number as JSON text. What is not finite has no JSON number and is written `null`. -/
def numberText : JsonNumber → String
  | .integer n => toString n
  | .real x => if x.isFinite then realText x else "null"

mutual

/-- Compact JSON text. -/
def render : Json → String
  | .null => "null"
  | .bool b => if b then "true" else "false"
  | .number n => numberText n
  | .text s => quote s
  | .array items => "[" ++ String.intercalate "," (renderItems items) ++ "]"
  | .object members => "\x7b" ++ String.intercalate "," (renderMembers members) ++ "\x7d"

/-- The text of each item of an array. -/
def renderItems : List Json → List String
  | [] => []
  | j :: rest => j.render :: renderItems rest

/-- The text of each member of an object. -/
def renderMembers : List (String × Json) → List String
  | [] => []
  | (k, j) :: rest => (quote k ++ ":" ++ j.render) :: renderMembers rest

end

end Json
end TableRecords
