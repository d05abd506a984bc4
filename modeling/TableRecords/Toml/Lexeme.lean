import TableRecords.IntKind
import TableRecords.Toml.Node

/-!
# The words of TOML

Blanks, comments, keys, strings, numbers, dates and times. Each reader takes the characters of a
word from the front of a text and gives what follows it, or nothing if the text does not begin
with such a word.
-/

namespace TableRecords.Toml

/-- A reader of a word. -/
abbrev Reader (α : Type) : Type := List Char → Option (α × List Char)

/-- Drops spaces and tabs. -/
def skipBlanks (cs : List Char) : List Char := cs.dropWhile fun c => c == ' ' || c == '\t'

/-- Whether a character may stand in a comment: all but controls, and the tab. -/
def isCommentChar (c : Char) : Bool := c == '\t' || (0x20 ≤ c.toNat && c.toNat != 0x7f)

/-- Drops a comment up to the end of its line. -/
def skipComment : List Char → List Char
  | '#' :: cs => cs.dropWhile isCommentChar
  | cs => cs

/-- A line end. -/
def newline? : List Char → Option (List Char)
  | '\n' :: cs => some cs
  | '\x0d' :: '\n' :: cs => some cs
  | _ => none

/-- What may follow the last word of a line. -/
def lineEnd? (cs : List Char) : Option (List Char) :=
  match skipComment (skipBlanks cs) with
  | [] => some []
  | cs => newline? cs

/-- Drops blanks, comments and line ends. -/
def skipLines : (fuel : Nat) → List Char → List Char
  | 0, cs => cs
  | fuel + 1, cs =>
    match newline? (skipComment (skipBlanks cs)) with
    | some rest => skipLines fuel rest
    | none => skipBlanks cs

/-! ## Strings and keys -/

/-- Some hexadecimal digits as a number. -/
def hexNumber? (cs : List Char) : Option Nat :=
  cs.foldlM (fun n c =>
    if c.isDigit then some (16 * n + (c.toNat - 48))
    else if 'a' ≤ c ∧ c ≤ 'f' then some (16 * n + (c.toNat - 87))
    else if 'A' ≤ c ∧ c ≤ 'F' then some (16 * n + (c.toNat - 55))
    else none) 0

/-- The character of a code point of `count` hexadecimal digits. -/
def codePoint (count : Nat) : Reader Char := fun cs => do
  if (cs.take count).length < count then none
  let n ← hexNumber? (cs.take count)
  if n.isValidChar then some (Char.ofNat n, cs.drop count) else none

/-- What stands behind a backslash. -/
def escape : Reader Char
  | 'b' :: cs => some ('\x08', cs)
  | 't' :: cs => some ('\t', cs)
  | 'n' :: cs => some ('\n', cs)
  | 'f' :: cs => some ('\x0c', cs)
  | 'r' :: cs => some ('\x0d', cs)
  | '\x22' :: cs => some ('\x22', cs)
  | '\\' :: cs => some ('\\', cs)
  | 'u' :: cs => codePoint 4 cs
  | 'U' :: cs => codePoint 8 cs
  | _ => none

/-- The rest of a string between quotes, with escapes. -/
def basicRest : (fuel : Nat) → Reader (List Char)
  | 0, _ => none
  | _, '\x22' :: cs => some ([], cs)
  | fuel + 1, '\\' :: cs => do
    let (c, cs) ← escape cs
    let (s, cs) ← basicRest fuel cs
    return (c :: s, cs)
  | fuel + 1, c :: cs => do
    if !isCommentChar c then none
    let (s, cs) ← basicRest fuel cs
    return (c :: s, cs)
  | _, [] => none

/-- The rest of a string between single quotes. -/
def literalRest : Reader (List Char)
  | [] => none
  | c :: cs =>
    if c = '\x27' then some ([], cs)
    else if isCommentChar c then (literalRest cs).map fun (s, cs) => (c :: s, cs)
    else none

/-- The rest of a string of several lines behind a `quote` that may close it: three close it,
and up to two more of them are its last characters. -/
def closing? (quote : Char) : Reader (List Char)
  | a :: b :: c :: cs =>
    if a = quote ∧ b = quote ∧ c = quote then
      let more := (cs.takeWhile (· == quote)).length.min 2
      some (List.replicate more quote, cs.drop more)
    else none
  | _ => none

/-- Behind a backslash at the end of a line: drops the blanks and line ends up to the next
character. -/
def lineFold? (cs : List Char) : Option (List Char) := do
  let cs ← newline? (skipBlanks cs)
  return cs.dropWhile fun c => c == ' ' || c == '\t' || c == '\n' || c == '\x0d'

/-- The rest of a string of several lines. -/
def longRest (quote : Char) (escapes : Bool) : (fuel : Nat) → Reader (List Char)
  | 0, _ => none
  | _, [] => none
  | fuel + 1, c :: cs =>
    match closing? quote (c :: cs) with
    | some r => some r
    | none =>
      if c = '\\' ∧ escapes then
        match lineFold? cs with
        | some cs => longRest quote escapes fuel cs
        | none => do
          let (e, cs) ← escape cs
          let (s, cs) ← longRest quote escapes fuel cs
          return (e :: s, cs)
      else
        match newline? (c :: cs) with
        | some cs => do
          let (s, cs) ← longRest quote escapes fuel cs
          return ('\n' :: s, cs)
        | none => do
          if !isCommentChar c then none
          let (s, cs) ← longRest quote escapes fuel cs
          return (c :: s, cs)

/-- A string of several lines; a line end at its very beginning does not count. -/
def long (quote : Char) (escapes : Bool) : Reader (List Char) := fun cs =>
  longRest quote escapes (cs.length + 1) ((newline? cs).getD cs)

/-- A string. -/
def string : Reader (List Char)
  | '\x22' :: '\x22' :: '\x22' :: cs => long '\x22' true cs
  | '\x27' :: '\x27' :: '\x27' :: cs => long '\x27' false cs
  | '\x22' :: cs => basicRest (cs.length + 1) cs
  | '\x27' :: cs => literalRest cs
  | _ => none

/-- Whether a character may stand in a key without quotes. -/
def isKeyChar (c : Char) : Bool := c.isAlphanum || c == '_' || c == '-'

/-- A key without dots. -/
def simpleKey : Reader String
  | '\x22' :: cs => (basicRest (cs.length + 1) cs).map fun (s, cs) => (String.ofList s, cs)
  | '\x27' :: cs => (literalRest cs).map fun (s, cs) => (String.ofList s, cs)
  | cs =>
    let word := cs.takeWhile isKeyChar
    if word.isEmpty then none else some (String.ofList word, cs.drop word.length)

/-- The parts of a key behind the first. -/
def keyRest : (fuel : Nat) → Reader (List String)
  | 0, _ => none
  | fuel + 1, cs =>
    match skipBlanks cs with
    | '.' :: cs => do
      let (k, cs) ← simpleKey (skipBlanks cs)
      let (ks, cs) ← keyRest fuel cs
      return (k :: ks, cs)
    | cs => some ([], cs)

/-- The deepest nesting of arrays, inline tables and dotted keys. -/
def maxDepth : Nat := 79

/-- A key: the path to a table, and a name in it. -/
def key : Reader (List String × String) := fun cs => do
  let (k, cs) ← simpleKey (skipBlanks cs)
  let (ks, cs) ← keyRest (cs.length + 1) cs
  if maxDepth < ks.length + 1 then none
  return (((k :: ks).dropLast, (k :: ks).getLastD k), cs)

/-! ## Numbers -/

/-- Whether a character is a digit of a base. -/
def isDigitOf (base : Nat) (c : Char) : Bool :=
  (c.isDigit && c.toNat - 48 < base)
    || (base == 16 && (('a' ≤ c && c ≤ 'f') || ('A' ≤ c && c ≤ 'F')))

/-- Digits of a base. Single underscores may stand between them. -/
def digits (base : Nat) : Reader (List Char)
  | [] => none
  | c :: cs =>
    if !isDigitOf base c then none
    else
      match cs with
      | '_' :: cs => (digits base cs).map fun (ds, cs) => (c :: ds, cs)
      | cs =>
        match digits base cs with
        | some (ds, rest) => some (c :: ds, rest)
        | none => if cs.head?.any (isDigitOf base) then none else some ([c], cs)

/-- Digits of a base as a number. -/
def ofDigits (base : Nat) (ds : List Char) : Nat :=
  ds.foldl (fun n c => base * n
    + (if c.isDigit then c.toNat - 48 else (c.toNat - 55) % 32)) 0

/-- The sign in front of a number: whether it is a minus. -/
def sign : List Char → Bool × List Char
  | '+' :: cs => (false, cs)
  | '-' :: cs => (true, cs)
  | cs => (false, cs)

/-- An integer has 64 bits. -/
def integerNode? (n : Int) : Option Node :=
  if IntKind.int64.Holds n then some (.integer n) else none

/-- The decimal digits of a whole part, which has no zero in front. -/
def wholeDigits : Reader (List Char) := fun cs => do
  let (ds, rest) ← digits 10 cs
  if ds.head? = some '0' ∧ cs.tail ≠ rest then none else some (ds, rest)

/-- The part of a float behind its whole digits: the digits of the fraction and the exponent. -/
def floatTail : Reader (List Char × Int)
  | '.' :: cs => do
    let (part, cs) ← digits 10 cs
    match cs with
    | c :: rest =>
      if c = 'e' ∨ c = 'E' then
        let (negative, rest) := sign rest
        let (ds, cs) ← digits 10 rest
        let e : Int := ofDigits 10 ds
        return ((part, if negative then -e else e), cs)
      else return ((part, 0), c :: rest)
    | [] => return ((part, 0), [])
  | c :: cs => do
    if c ≠ 'e' ∧ c ≠ 'E' then none
    let (negative, rest) := sign cs
    let (ds, cs) ← digits 10 rest
    let e : Int := ofDigits 10 ds
    return (([], if negative then -e else e), cs)
  | [] => none

/-- A decimal as a binary64 number; exponents far out of range stand for zero and infinity. -/
def floatOf (negative : Bool) (whole part : List Char) (e : Int) : Float :=
  let n := ofDigits 10 (whole ++ part)
  let e := e - part.length
  let point : Int := e + (Nat.toDigits 10 n).length
  let x : Float :=
    if n = 0 ∨ point < -400 then 0
    else if 400 < point then 1 / 0
    else Float.ofScientific n (e < 0) e.natAbs
  if negative then -x else x

/-- A decimal number. A float that is too large is refused. -/
def decimal : Reader Node := fun cs => do
  let (negative, cs) := sign cs
  match cs with
  | 'i' :: 'n' :: 'f' :: cs => return (.real (if negative then -(1 / 0) else 1 / 0), cs)
  | 'n' :: 'a' :: 'n' :: cs => return (.real (0 / 0), cs)
  | cs =>
    let (whole, rest) ← wholeDigits cs
    match floatTail rest with
    | some ((part, e), rest) =>
      let x := floatOf negative whole part e
      if x == 1 / 0 then none else return (.real x, rest)
    | none =>
      let n : Int := ofDigits 10 whole
      return (← integerNode? (if negative then -n else n), rest)

/-- A number with the mark of its base in front. -/
def inBase (base : Nat) : Reader Node := fun cs => do
  let (ds, cs) ← digits base cs
  return (← integerNode? (ofDigits base ds), cs)

/-! ## Dates and times -/

/-- A decimal number of exactly `count` digits within bounds. -/
def field (count low high : Nat) : Reader Nat := fun cs =>
  let ds := cs.take count
  let n := ofDigits 10 ds
  if ds.length = count ∧ ds.all Char.isDigit ∧ low ≤ n ∧ n ≤ high then some (n, cs.drop count)
  else none

/-- Takes a character. -/
def expect (c : Char) : List Char → Option (List Char)
  | [] => none
  | d :: cs => if c = d then some cs else none

/-- The number of days of a month. -/
def daysOf (year month : Nat) : Nat :=
  if month = 2 then
    if year % 4 = 0 ∧ (year % 100 ≠ 0 ∨ year % 400 = 0) then 29 else 28
  else if month ∈ [4, 6, 9, 11] then 30
  else 31

/-- A date. -/
def date (cs : List Char) : Option (List Char) := do
  let (year, cs) ← field 4 0 9999 cs
  let (month, cs) ← field 2 1 12 (← expect '-' cs)
  let (_, cs) ← field 2 1 (daysOf year month) (← expect '-' cs)
  return cs

/-- A time of the day. -/
def time (cs : List Char) : Option (List Char) := do
  let (_, cs) ← field 2 0 23 cs
  let (_, cs) ← field 2 0 59 (← expect ':' cs)
  let (_, cs) ← field 2 0 60 (← expect ':' cs)
  match cs with
  | '.' :: rest =>
    let ds := rest.takeWhile Char.isDigit
    if ds.isEmpty then none else return rest.drop ds.length
  | cs => return cs

/-- The distance from universal time, if it is given. -/
def timeZone? (cs : List Char) : Option (List Char) :=
  match cs with
  | [] => some []
  | c :: rest =>
    if c = 'Z' ∨ c = 'z' then some rest
    else if c = '+' ∨ c = '-' then do
      let (_, cs) ← field 2 0 23 rest
      let (_, cs) ← field 2 0 59 (← expect ':' cs)
      return cs
    else some (c :: rest)

/-- A date, a time or both. -/
def moment : Reader Node := fun cs => do
  let node := fun (rest : List Char) =>
    (Node.moment (String.ofList (cs.take (cs.length - rest.length))), rest)
  match date cs with
  | none => return node (← time cs)
  | some [] => return node []
  | some (c :: rest) =>
    if c = 'T' ∨ c = 't' ∨ c = ' ' then
      match time rest with
      | some rest => return node (← timeZone? rest)
      | none => if c = ' ' then return node (c :: rest) else none
    else return node (c :: rest)

end TableRecords.Toml
