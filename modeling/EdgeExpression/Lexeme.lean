import EdgeExpression.Operator

/-!
# Lexemes

A lexeme is one indivisible part of an expression's text. References to the
surroundings are cut so that a name always stands in one lexeme with its delimiters:
the opening of a call or of a member, and a whole variable. Every lexeme has a
canonical spelling, and a spacing in which the canonical text of an expression
shows it.
-/
namespace EdgeExpression

/-- One indivisible part of an expression's text. -/
inductive Lexeme where
  /-- A dollar sign, the called function's name and an opening parenthesis. -/
  | call (callee : String)
  /-- A dollar sign and a variable's name in parentheses. -/
  | variable (name : String)
  /-- A dollar sign, an opening parenthesis, a name and an opening brace. -/
  | member (owner : String)
  /-- Quoted text, here without its quotes. -/
  | literal (text : String)
  /-- A numeral as it stands in the text. -/
  | number (numeral : String)
  | openParen | closeParen | openBracket | closeBracket | openBrace | closeBrace
  | comma | colon
  | comparison (operator : Comparison)
  | connective (operator : Connective)
  | not
deriving Repr, DecidableEq, Inhabited

namespace Lexeme

/-- The name of a lexeme's kind in token listings. -/
def kindName : Lexeme → String
  | .call _ => "CallExpression"
  | .variable _ => "Identifier"
  | .member _ => "MemberExpression"
  | .literal _ => "Literal"
  | .number _ => "Number"
  | .openParen => "("
  | .closeParen => ")"
  | .openBracket => "ArrayExpression"
  | .closeBracket => "]"
  | .openBrace => "ObjectExpression"
  | .closeBrace => "\x7d"
  | .comma => ","
  | .colon => ":"
  | .comparison _ => "BinaryOperator"
  | .connective _ => "LogicalOperator"
  | .not => "UnaryOperator"

/-- What a lexeme carries: a name, a literal's text or a numeral, and otherwise its
symbol. -/
def cargo : Lexeme → String
  | .call callee => callee
  | .variable name => name
  | .member owner => owner
  | .literal text => text
  | .number numeral => numeral
  | .openParen => "("
  | .closeParen => ")"
  | .openBracket => "["
  | .closeBracket => "]"
  | .openBrace => "\x7b"
  | .closeBrace => "\x7d"
  | .comma => ","
  | .colon => ":"
  | .comparison operator => operator.symbol
  | .connective operator => operator.symbol
  | .not => negationSymbol

/-- Text between quotes: one on each side, or three if the text holds a quote. -/
def quoted (text : List Char) : List Char :=
  if '\'' ∈ text then ['\'', '\'', '\''] ++ text ++ ['\'', '\'', '\'']
  else ['\''] ++ text ++ ['\'']

/-- The canonical text of a lexeme. -/
def spelling : Lexeme → List Char
  | .call callee => '$' :: callee.toList ++ ['(']
  | .variable name => '$' :: '(' :: name.toList ++ [')']
  | .member owner => '$' :: '(' :: owner.toList ++ ['{']
  | .literal text => quoted text.toList
  | other => other.cargo.toList

/-- The spelling with the spaces that canonical text sets around it: one behind a
comma and behind a colon, and one on either side of an operator with two operands. -/
def spaced : Lexeme → List Char
  | .comma => [',', ' ']
  | .colon => [':', ' ']
  | .comparison operator => ' ' :: operator.symbol.toList ++ [' ']
  | .connective operator => ' ' :: operator.symbol.toList ++ [' ']
  | other => other.spelling

/-- The character that every text of a lexeme begins with. -/
def leadChar (lexeme : Lexeme) : Char := lexeme.spelling.headD ' '

end Lexeme
end EdgeExpression
