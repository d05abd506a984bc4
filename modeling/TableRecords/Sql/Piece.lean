import TableRecords.Dialect

/-!
# SQL written by callers

A caller marks each argument by `?`. `cut` divides a text from left to right into protected
spans (strings, quoted identifiers, comments and dollar-quoted bodies), doubled marks, single
marks and other characters. Nothing is lost: the pieces joined give the text (`Cuts.join_eq`).
-/

namespace TableRecords.Sql

/-- A piece of a text written by a caller. -/
inductive Piece where
  /-- A string, quoted identifier, comment or dollar-quoted body, in which marks do not count. -/
  | span (cs : List Char)
  /-- `??`, which stands for a question mark. -/
  | escaped
  /-- `?`, which stands for the next argument. -/
  | mark
  | char (c : Char)
  deriving DecidableEq, Repr

/-- The characters of a piece as they were written. -/
def Piece.chars : Piece → List Char
  | span cs => cs
  | escaped => ['?', '?']
  | mark => ['?']
  | char c => [c]

/-- The text that pieces were cut from. -/
def join (pieces : List Piece) : List Char := pieces.flatMap Piece.chars

/-- A letter, digit or underscore of ASCII. -/
def isTagChar (c : Char) : Bool := c.isAlphanum || c == '_'

/-- The delimiter of a dollar-quoted body whose first dollar is already read: a tag that does
not begin with a digit, between two dollars. -/
def dollarDelimiter? (cs : List Char) : Option (List Char) :=
  let tag := cs.takeWhile (· != '$')
  if (cs.drop tag.length).head? = some '$' ∧ tag.all isTagChar ∧ !(tag.head?.any Char.isDigit) then
    some ('$' :: tag ++ ['$'])
  else none

/-- The opening delimiter of a protected span at the front of a text, less its first character,
and the delimiter that closes the span. -/
def opener? (d : Dialect) (c : Char) (rest : List Char) : Option (List Char × List Char) :=
  if c = '\x27' ∨ c = '\x22' then some ([], [c])
  else if c = '-' ∧ rest.head? = some '-' then some (['-'], ['\n'])
  else if c = '/' ∧ rest.head? = some '*' then some (['*'], ['*', '/'])
  else if c = '\x60' ∧ d = .mysql then some ([], [c])
  else if c = '[' ∧ d = .sqlServer then some ([], [']'])
  else if c = '$' ∧ d = .postgres then
    (dollarDelimiter? rest).map fun delimiter => (delimiter.tail, delimiter)
  else none

/-- Divides a text behind the first occurrence of `closer`; all of it comes first if there is
none. -/
def upTo (closer : List Char) : List Char → List Char × List Char
  | [] => ([], [])
  | c :: cs =>
    if closer.isPrefixOf (c :: cs) then (closer, (c :: cs).drop closer.length)
    else (c :: (upTo closer cs).1, (upTo closer cs).2)

theorem length_upTo (closer cs : List Char) : (upTo closer cs).2.length ≤ cs.length := by
  induction cs with
  | nil => simp [upTo]
  | cons c cs ih =>
    unfold upTo
    split
    · simp only [List.length_drop]
      omega
    · simp only [List.length_cons]
      omega

/-- Cuts a text into pieces from left to right. -/
def cut (d : Dialect) : List Char → List Piece
  | [] => []
  | c :: rest =>
    match opener? d c rest with
    | some (more, closer) =>
      let body := upTo closer (rest.drop more.length)
      .span (c :: more ++ body.1) :: cut d body.2
    | none =>
      match c, rest with
      | '?', '?' :: rest => .escaped :: cut d rest
      | '?', rest => .mark :: cut d rest
      | c, rest => .char c :: cut d rest
termination_by cs => cs.length
decreasing_by
  · have h := length_upTo closer (rest.drop more.length)
    simp only [List.length_drop, List.length_cons] at h ⊢
    omega
  all_goals (simp only [List.length_cons]; omega)

end TableRecords.Sql
