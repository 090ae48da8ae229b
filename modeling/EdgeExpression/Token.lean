import EdgeExpression.Lexeme
import EdgeExpression.Text.Position

/-!
# Tokens

A token is what the reader of an expression's text hands out at a time: a lexeme, a
run of blanks behind a colon, or the end of the text. It knows where it begins, and,
if wanted, the source text it accounts for.
-/
namespace EdgeExpression

/-- What a token stands for. -/
inductive Content where
  | lexeme (value : Lexeme)
  /-- The whole run of blanks behind a colon. -/
  | space (run : String)
  /-- The end of the text. -/
  | ending
deriving Repr, DecidableEq, Inhabited

namespace Content

/-- The name of a token's kind in token listings. -/
def kindName : Content → String
  | lexeme value => value.kindName
  | space _ => "Space"
  | ending => "EOL"

/-- What a token carries. -/
def cargo : Content → String
  | lexeme value => value.cargo
  | space run => run
  | ending => ""

end Content

/-- A part of an expression's text, in its place. -/
structure Token where
  content : Content
  /-- Where the lexeme, the run of blanks or the end of the text begins. -/
  position : Position
  /-- All source text since the token before, blanks included, if it is recorded. -/
  raw : Option String
deriving Repr, DecidableEq, Inhabited

end EdgeExpression
