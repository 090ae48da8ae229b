import EdgeExpression.Expr.Progress
import EdgeExpression.Token.Stream

/-!
# Parsing

An expression is read from a token stream; tokens of blanks are passed over. No token
is asked for before the ones in front of it have found their place. So of several
faults in a text the first one is reported, with one exception: that a numeral is out
of range shows only once the token behind it has been asked for, and if there is no
such token, that fault is reported instead.

A token that is refused is reported by the character that stands in the text where the token
begins.
-/
namespace EdgeExpression

/-- The levels of nesting that an expression's text may have. -/
def maxDepth : Nat := 128

/-- The character by which a refused lexeme is reported: the one in the text where the
lexeme begins. If there were none, it would be the first one of what the lexeme carries, or
a space. -/
def TokenStream.shownChar (stream : TokenStream) (value : Lexeme) (start : Position) : Char :=
  ((charAt stream.source.toList start.offset).or value.cargo.toList.head?).getD ' '

namespace Progress

/-- Goes on with a reading, token by token, up to the end of the text or the first
fault. -/
def run (limit : Nat) (progress : Progress) (stream : TokenStream) : Except ParseError Expr :=
  match _ : stream.pull with
  | (.error error, _) => .error error.toParseError
  | (.ok ⟨.space _, _, _⟩, behind) => run limit progress behind
  | (.ok ⟨.ending, position, _⟩, _) =>
      match progress.finish with
      | some e => .ok e
      | none => .error ⟨.unexpectedEnd, position⟩
  | (.ok ⟨.lexeme value, position, _⟩, behind) =>
      match progress.step limit value with
      | .next progress => run limit progress behind
      | .refused => .error ⟨.unexpectedChar (stream.shownChar value position), position⟩
      | .outOfRange =>
          match behind.pull with
          | (.error error, _) => .error error.toParseError
          | _ => .error ⟨.outOfRange value.cargo, position⟩
termination_by stream.cursor.rest.length
decreasing_by all_goals exact TokenStream.pull_rest_lt ‹_› rfl

end Progress

/-- Reads all that is left of a token stream as one expression. -/
def TokenStream.parse (stream : TokenStream) : Except ParseError Expr :=
  (Progress.operand []).run maxDepth stream

namespace Expr

/-- Reads a text as one expression. -/
def parse (source : String) : Except ParseError Expr := (TokenStream.ofText source false).parse

/-- Reads a text as one expression; a text that cannot be cut into lexemes fails with
the error of the lexemes. -/
def ofString (source : String) : Except Error Expr :=
  (parse source).mapError ParseError.toError

end Expr
end EdgeExpression
