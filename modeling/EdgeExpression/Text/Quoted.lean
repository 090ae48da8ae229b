/-!
# Quoted text

Text is shown between double quotes, on one line, so that every character of it can
be told. The quote itself and the backslash are written behind a backslash, four
control characters by a letter or digit of their own, and the other control
characters by their code point in braces. So are the characters that would not be seen
on their own: blanks, marks that combine with what stands in front of them, characters
without a shape or without a meaning. Which ones these are changes with each version of
Unicode, and therefore is left to whoever writes the text. Everything else stands for
itself.
-/
namespace EdgeExpression.Quoted

/-- The control characters, of ASCII and of Latin-1. -/
def isControl (c : Char) : Bool := c.toNat < 0x20 || (0x7f ≤ c.toNat && c.toNat ≤ 0x9f)

/-- The code point of a character in lowercase hexadecimal digits, without leading
zeros. -/
def codePoint (c : Char) : List Char := Nat.toDigits 16 c.toNat

/-- How one character is written between the quotes, if some characters are hidden. -/
def escape (hidden : Char → Bool) (c : Char) : List Char :=
  if c = '"' then ['\\', '"']
  else if c = '\\' then ['\\', '\\']
  else if c = '\t' then ['\\', 't']
  else if c = '\n' then ['\\', 'n']
  else if c = '\r' then ['\\', 'r']
  else if c = '\x00' then ['\\', '0']
  else if isControl c || hidden c then ['\\', 'u', '{'] ++ codePoint c ++ ['}']
  else [c]

/-- A text between double quotes. -/
def encode (hidden : Char → Bool) (text : String) : String :=
  String.ofList ('"' :: text.toList.flatMap (escape hidden) ++ ['"'])

end EdgeExpression.Quoted
