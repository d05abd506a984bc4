import TableRecords.Embedded.Affinity

/-!
# Tokens of the engine's SQL

A statement is divided into tokens, each with its place in the text, counted in bytes. Blanks and
comments stand between tokens and are dropped. `Token.scan` never fails: what is no token is kept
as one that nothing accepts.
-/

namespace TableRecords.Embedded

/-- The kind of a token with what it says. -/
inductive Lexeme where
  /-- A keyword or a name without quotes. -/
  | word (s : String)
  /-- A name in brackets or backquotes. -/
  | name (s : String)
  /-- A name in double quotes, or else a string. -/
  | quoted (s : String)
  | string (s : String)
  | blob (bytes : ByteArray)
  | integer (n : Nat)
  | real (digits : Nat) (exponent : Int)
  /-- A parameter with its number, counted from one. -/
  | param (n : Nat)
  | symbol (s : String)
  | illegal
  deriving DecidableEq, Inhabited

/-- A token with its first byte and the byte behind it. -/
structure Token where
  lexeme : Lexeme
  start : Nat
  stop : Nat
  deriving DecidableEq, Inhabited

namespace Token

/-- The length of characters in bytes. -/
def byteLength (cs : List Char) : Nat := cs.foldl (fun n c => n + c.utf8Size) 0

/-- Whether a character may begin a name. -/
def beginsName (c : Char) : Bool := c.isAlpha || c == '_' || 128 ≤ c.toNat

/-- Whether a character may stand in a name. -/
def isNameChar (c : Char) : Bool := beginsName c || c.isDigit || c == '$'

/-- The end of a block comment and what follows it; an open comment ends with the text. -/
def skipBlock : List Char → List Char
  | [] => []
  | [_] => []
  | c :: d :: rest => if c = '*' ∧ d = '/' then rest else skipBlock (d :: rest)

/-- The text between two quotes, with a doubled quote for one, and what follows. -/
def between (quote : Char) : List Char → Option (List Char × List Char)
  | [] => none
  | [c] => if c = quote then some ([], []) else none
  | c :: d :: rest =>
    if c = quote then
      if d = quote then (between quote rest).map fun (s, tail) => (quote :: s, tail)
      else some ([], d :: rest)
    else (between quote (d :: rest)).map fun (s, tail) => (c :: s, tail)

/-- The value of a hexadecimal digit. -/
def hexValue? (c : Char) : Option Nat :=
  if c.isDigit then some (c.toNat - 48)
  else if 'a' ≤ c ∧ c ≤ 'f' then some (c.toNat - 87)
  else if 'A' ≤ c ∧ c ≤ 'F' then some (c.toNat - 55)
  else none

/-- The bytes of pairs of hexadecimal digits. -/
def hexBytes? : List Char → Option (List UInt8)
  | [] => some []
  | [_] => none
  | a :: b :: rest => do
    return (16 * (← hexValue? a) + (← hexValue? b)).toUInt8 :: (← hexBytes? rest)

/-- A number at the front of a text, and what follows it. With a name right behind it the number
is no token. -/
def number (cs : List Char) : Lexeme × List Char :=
  match Cell.takeNumeral cs with
  | none => (.illegal, cs.tail)
  | some n =>
    if n.rest.head?.any isNameChar then (.illegal, n.rest.dropWhile isNameChar)
    else (if n.isWhole then .integer n.digits else .real n.digits n.exponent, n.rest)

/-- What stands behind an opening quote, and what follows. A quote that is not closed takes all of
the text. -/
def closed (quote : Char) (make : String → Lexeme) (cs : List Char) : Lexeme × List Char :=
  match between quote cs with
  | some (s, tail) => (make (String.ofList s), tail)
  | none => (.illegal, [])

/-- A name in brackets behind the opening one, and what follows. -/
def bracketed (cs : List Char) : Lexeme × List Char :=
  let s := cs.takeWhile (· != ']')
  match cs.drop s.length with
  | [] => (.illegal, [])
  | _ :: tail => (.name (String.ofList s), tail)

/-- The bytes behind the opening quote of a blob, and what follows. What is no pair of
hexadecimal digits spoils all up to the next quote. -/
def blob (cs : List Char) : Lexeme × List Char :=
  let digits := cs.takeWhile fun c => (hexValue? c).isSome
  let behind := cs.drop digits.length
  match behind, hexBytes? digits with
  | '\x27' :: tail, some bytes => (.blob ⟨bytes.toArray⟩, tail)
  | _, _ => (.illegal, (behind.dropWhile (· != '\x27')).tail)

/-- The symbols, longer ones first. -/
def symbols : List String :=
  ["||", "==", "<>", "!=", "<=", ">=", "<<", ">>", "(", ")", ",", ";", ".", "*", "=", "<", ">",
    "+", "-", "/", "%", "&", "|", "~"]

/-- The symbol at the front of a text, and what follows it. -/
def symbol (cs : List Char) : Lexeme × List Char :=
  match symbols.find? fun s => s.toList.isPrefixOf cs with
  | some s => (.symbol s, cs.drop s.length)
  | none => (.illegal, cs.tail)

/-- Parameters that were numbered so far: the greatest number, and the names. -/
structure Params where
  count : Nat := 0
  names : List (String × Nat) := []

/-- Numbers a parameter: by its number, by an earlier one of its name, or with the next. -/
def Params.number (ps : Params) (mark : Char) (name : String) : Nat × Params :=
  if mark = '?' then
    match name.toNat? with
    | some n => (n, { ps with count := max ps.count n })
    | none => (ps.count + 1, { ps with count := ps.count + 1 })
  else
    let name := mark.toString ++ name
    match ps.names.lookup name with
    | some n => (n, ps)
    | none => (ps.count + 1, ⟨ps.count + 1, (name, ps.count + 1) :: ps.names⟩)

/-- The token at the front of a text that begins with none of blank and comment. -/
def take (ps : Params) (c : Char) (rest : List Char) : Lexeme × Params × List Char :=
  let cs := c :: rest
  let plain := fun (r : Lexeme × List Char) => (r.1, ps, r.2)
  if c = '\x27' then plain (closed c .string rest)
  else if c = '\x22' then plain (closed c .quoted rest)
  else if c = '\x60' then plain (closed c .name rest)
  else if c = '[' then plain (bracketed rest)
  else if (c = 'x' ∨ c = 'X') ∧ rest.head? = some '\x27' then plain (blob rest.tail)
  else if beginsName c then
    let s := cs.takeWhile isNameChar
    (.word (String.ofList s), ps, cs.drop s.length)
  else if c.isDigit ∨ (c = '.' ∧ rest.head?.any Char.isDigit) then plain (number cs)
  else if c = '?' then
    let s := rest.takeWhile Char.isDigit
    let (n, ps) := ps.number c (String.ofList s)
    (.param n, ps, rest.drop s.length)
  else if c ∈ [':', '@', '$', '#'] then
    let s := rest.takeWhile isNameChar
    if s.isEmpty then (.illegal, ps, rest)
    else
      let (n, ps) := ps.number c (String.ofList s)
      (.param n, ps, rest.drop s.length)
  else plain (symbol cs)

/-- Divides a text from byte `offset` on, up to its end or a zero character. -/
def scanFrom : (fuel : Nat) → Params → (offset : Nat) → List Char → List Token
  | 0, _, _, _ => []
  | _, _, _, [] => []
  | _, _, _, '\x00' :: _ => []
  | fuel + 1, ps, offset, c :: rest =>
    let skipTo := fun (tail : List Char) =>
      scanFrom fuel ps (offset + byteLength ((c :: rest).take (rest.length + 1 - tail.length))) tail
    if c ∈ [' ', '\t', '\n', '\x0c', '\x0d', '\ufeff'] then skipTo rest
    else if c = '-' ∧ rest.head? = some '-' then skipTo (rest.dropWhile (· != '\n'))
    else if c = '/' ∧ rest.head? = some '*' then skipTo (skipBlock rest.tail)
    else
      let (lexeme, ps, tail) := take ps c rest
      let stop := offset + byteLength ((c :: rest).take (rest.length + 1 - tail.length))
      ⟨lexeme, offset, stop⟩ :: scanFrom fuel ps stop tail

/-- The tokens of a text. -/
def scan (sql : String) : List Token := scanFrom (sql.length + 1) {} 0 sql.toList

end Token

/-- The part of a text between two bytes. -/
def slice (sql : String) (start stop : Nat) : String :=
  (String.fromUTF8? (sql.toUTF8.extract start stop)).getD ""

end TableRecords.Embedded
