/-!
# Blanks

Two classes of characters count as empty space. Between the parts of an expression
only four characters are blank; every other one, the no-break space included, is
refused there. A line of input, on the other hand, is empty if all its characters
have the Unicode property White_Space.
-/
namespace EdgeExpression

/-- The characters that may stand between the parts of an expression: space,
tabulator, line feed and carriage return. -/
def isBlank (c : Char) : Bool := c == ' ' || c == '\t' || c == '\n' || c == '\r'

/-- The ranges of the Unicode property White_Space, both ends included. -/
def whiteSpaceRanges : List (Nat × Nat) :=
  [(0x09, 0x0d), (0x20, 0x20), (0x85, 0x85), (0xa0, 0xa0), (0x1680, 0x1680),
   (0x2000, 0x200a), (0x2028, 0x2029), (0x202f, 0x202f), (0x205f, 0x205f),
   (0x3000, 0x3000)]

/-- The characters with the Unicode property White_Space. -/
def isWhiteSpace (c : Char) : Bool :=
  whiteSpaceRanges.any fun range => range.1 ≤ c.toNat && c.toNat ≤ range.2

/-- A text without a character other than white space. -/
def isEmptyLine (line : String) : Bool := line.toList.all isWhiteSpace

end EdgeExpression
