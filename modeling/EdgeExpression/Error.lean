import EdgeExpression.Text.Cursor

/-!
# Errors

A text fails as a sequence of lexemes or as an expression. Every failure has a cause
and a position: the place of the character at fault, the end of the text, or the
beginning of a numeral that is out of range.
-/
namespace EdgeExpression

/-- Why no lexeme could be read. -/
inductive LexCause where
  | unexpectedChar (c : Char)
  | unexpectedEnd
deriving Repr, DecidableEq, Inhabited

/-- No lexeme could be read. -/
structure LexError where
  cause : LexCause
  position : Position
deriving Repr, DecidableEq, Inhabited

/-- Why no expression could be read. -/
inductive ParseCause where
  /-- The text could not be cut into lexemes. -/
  | lex (cause : LexCause)
  /-- A lexeme that cannot stand where it does, by its first character. -/
  | unexpectedChar (c : Char)
  /-- The expression is not complete. -/
  | unexpectedEnd
  /-- A numeral whose value no signed 64-bit integer holds. -/
  | outOfRange (numeral : String)
deriving Repr, DecidableEq, Inhabited

/-- No expression could be read. -/
structure ParseError where
  cause : ParseCause
  position : Position
deriving Repr, DecidableEq, Inhabited

/-- Either failure. -/
inductive Error where
  | lex (error : LexError)
  | parse (error : ParseError)
deriving Repr, DecidableEq, Inhabited

/-- The message for a character that cannot stand at a position. -/
private def unexpectedCharMessage (c : Char) (position : Position) : String :=
  "Unexpected char " ++ String.singleton c ++ " at " ++ position.text

/-- The message for a text that ends too early. It names no position, since there is
only one. -/
private def unexpectedEndMessage : String := "Unexpected end of line"

namespace LexError

/-- The error of a reader that found no way on at a cursor: it blames the character
there, or the end of the text. -/
def stoppedAt (cursor : Cursor) : LexError :=
  match cursor.rest with
  | [] => ⟨.unexpectedEnd, cursor.position⟩
  | c :: _ => ⟨.unexpectedChar c, cursor.position⟩

/-- The error as it is shown. -/
def message (error : LexError) : String :=
  match error.cause with
  | .unexpectedChar c => unexpectedCharMessage c error.position
  | .unexpectedEnd => unexpectedEndMessage

/-- A text that is no sequence of lexemes is no expression, for the same reason. -/
def toParseError (error : LexError) : ParseError := ⟨.lex error.cause, error.position⟩

end LexError

namespace ParseError

/-- The error as it is shown. -/
def message (error : ParseError) : String :=
  match error.cause with
  | .lex cause => LexError.message ⟨cause, error.position⟩
  | .unexpectedChar c => unexpectedCharMessage c error.position
  | .unexpectedEnd => unexpectedEndMessage
  | .outOfRange numeral =>
      "Number out of range " ++ numeral ++ " at " ++ error.position.text

/-- The failure that lies deepest: that of the lexemes, if they are at fault. -/
def toError (error : ParseError) : Error :=
  match error.cause with
  | .lex cause => .lex ⟨cause, error.position⟩
  | _ => .parse error

end ParseError

namespace Error

/-- The error as it is shown. -/
def message : Error → String
  | lex error => error.message
  | parse error => error.message

/-- Where the error is. -/
def position : Error → Position
  | lex error => error.position
  | parse error => error.position

end Error
end EdgeExpression
