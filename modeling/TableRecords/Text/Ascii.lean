/-!
# ASCII letter case

Case folding that touches the 26 letters of ASCII and no other character.
-/

namespace TableRecords.Text

/-- Text with `A`–`Z` written as `a`–`z`; every other character stays. -/
def asciiLower (s : String) : String := String.ofList (s.toList.map Char.toLower)

/-- Two texts that differ in ASCII letter case at most. -/
def sameIgnoringCase (s t : String) : Bool := asciiLower s == asciiLower t

/-- Whether `word` (lower case) opens `cs`, in any letter case. -/
def opensWith (word cs : List Char) : Bool := word.isPrefixOf (cs.map Char.toLower)

/-- Whether `part` stands somewhere in `cs`. -/
def contains (part : List Char) : List Char → Bool
  | [] => part.isEmpty
  | c :: cs => part.isPrefixOf (c :: cs) || contains part cs

end TableRecords.Text
