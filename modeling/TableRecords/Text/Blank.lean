/-!
# Blank characters

The characters of the Unicode property `White_Space`, and trimming text of them.
`trim` drops blanks at both ends only: what is left begins and ends with a character
that is not blank, or is empty.
-/

namespace TableRecords.Text

/-- Blank: the Unicode property `White_Space`. -/
def isBlank (c : Char) : Bool :=
  let n := c.toNat
  (9 ≤ n && n ≤ 13) || n == 0x20 || n == 0x85 || n == 0xa0 || n == 0x1680
    || (0x2000 ≤ n && n ≤ 0x200a) || n == 0x2028 || n == 0x2029 || n == 0x202f
    || n == 0x205f || n == 0x3000

/-- Characters with the blanks at the front dropped. -/
def trimFront (cs : List Char) : List Char := cs.dropWhile isBlank

/-- Characters with the blanks at the back dropped. -/
def trimBack (cs : List Char) : List Char := (cs.reverse.dropWhile isBlank).reverse

/-- Characters with the blanks at both ends dropped. -/
def trimChars (cs : List Char) : List Char := trimBack (trimFront cs)

/-- Text with the blanks at the front dropped. -/
def trimStart (s : String) : String := String.ofList (trimFront s.toList)

/-- Text with the blanks at both ends dropped. -/
def trim (s : String) : String := String.ofList (trimChars s.toList)

end TableRecords.Text
