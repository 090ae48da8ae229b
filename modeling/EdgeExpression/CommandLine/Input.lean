import EdgeExpression.Text.Blank
import EdgeExpression.Text.Lines

/-!
# Standard input

Standard input is a sequence of bytes and is read line by line. The bytes of a line, with the
line feed that ends it, must be UTF-8; then the end is taken off. A line whose bytes are not
UTF-8 stops the reading, and nothing has been read then, whatever the lines in front of it were.

A line without any character but white space holds no expression. All other lines are
expressions just as they are.
-/
namespace EdgeExpression.CommandLine

/-- The line feed, as a byte. -/
def feedByte : UInt8 := 10

/-- The text of a line without its end, if the bytes of the line are UTF-8. -/
def lineText? (line : List UInt8) : Option String :=
  (String.fromUTF8? line.toByteArray).map fun text => String.ofList (Lines.withoutEnd text.toList)

/-- Reads lines one after the other and keeps those that are not empty, up to the end or up to
a line that is not UTF-8. -/
def readLines? : List (List UInt8) → Option (List String)
  | [] => some []
  | line :: rest => do
      let text ← lineText? line
      let others ← readLines? rest
      return if isEmptyLine text then others else text :: others

/-- Reads the expressions on standard input. -/
def readInput? (stdin : ByteArray) : Option (List String) :=
  readLines? (Lines.withEnds feedByte stdin.data.toList)

/-- The expressions that a run handles: those given as arguments, or those of standard input if
none are given. -/
def handled? (expressions : List String) (stdin : ByteArray) : Option (List String) :=
  if expressions.isEmpty then readInput? stdin else some expressions

/-- The expressions on the lines of a text: its lines, without the empty ones. -/
def inputExpressions (input : String) : List String :=
  (Lines.ofText input).filter (!isEmptyLine ·)

end EdgeExpression.CommandLine
