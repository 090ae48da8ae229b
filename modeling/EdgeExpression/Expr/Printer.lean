import EdgeExpression.Expr
import EdgeExpression.Lexeme
import EdgeExpression.Text.Decimal

/-!
# Canonical text

The canonical text of an expression is given by its lexemes, from left to right, each
with its spacing. Groups in parentheses are set only where another expression would
be read without them. A comparison takes no comparison or connective as an operand
without a group, nor does a negation. Connectives chain to the right, so only a
connective on the left of another is grouped.
-/
namespace EdgeExpression

/-- The lexeme of a key in a member. -/
def Key.lexeme : Key → Lexeme
  | .name text => .literal text
  | .index value => .number (Decimal.ofInt64 value)

namespace Expr

/-- The lexemes of an operand, in parentheses if it is to be grouped. -/
def grouped (group : Bool) (lexemes : List Lexeme) : List Lexeme :=
  if group then .openParen :: lexemes ++ [.closeParen] else lexemes

mutual

/-- The lexemes of an expression's canonical text. -/
def lexemes : Expr → List Lexeme
  | .text value => [.literal value]
  | .number value => [.number (Decimal.ofInt64 value)]
  | .variable name => [.variable name]
  | .member owner key => [.member owner, key.lexeme, .closeBrace, .closeParen]
  | .call callee arguments =>
      .call callee :: [Lexeme.comma].intercalate (lexemesEach arguments) ++ [.closeParen]
  | .array elements =>
      .openBracket :: [Lexeme.comma].intercalate (lexemesEach elements) ++ [.closeBracket]
  | .object entries =>
      .openBrace :: [Lexeme.comma].intercalate (entryLexemes entries) ++ [.closeBrace]
  | .not operand => .not :: grouped operand.isInfix operand.lexemes
  | .comparison left operator right =>
      grouped left.isInfix left.lexemes ++
        .comparison operator :: grouped right.isInfix right.lexemes
  | .logical left operator right =>
      grouped left.isLogical left.lexemes ++ .connective operator :: right.lexemes
termination_by structural e => e

/-- The lexemes of each expression of a list. -/
def lexemesEach : List Expr → List (List Lexeme)
  | [] => []
  | e :: rest => e.lexemes :: lexemesEach rest
termination_by structural list => list

/-- The lexemes of each entry of an object: its key, a colon and its value. -/
def entryLexemes : List (String × Expr) → List (List Lexeme)
  | [] => []
  | (key, e) :: rest => (.literal key :: .colon :: e.lexemes) :: entryLexemes rest
termination_by structural list => list

end

/-- The lexemes of the parts of a list are those of each part. -/
theorem lexemesEach_eq_map (list : List Expr) : lexemesEach list = list.map lexemes := by
  induction list with
  | nil => rfl
  | cons e rest induction => rw [lexemesEach, induction, List.map_cons]

/-- The lexemes of an entry are its key, a colon and the lexemes of its value. -/
theorem entryLexemes_eq_map (entries : List (String × Expr)) :
    entryLexemes entries =
      entries.map fun entry => .literal entry.1 :: .colon :: entry.2.lexemes := by
  induction entries with
  | nil => rfl
  | cons entry rest induction => rw [entryLexemes, induction, List.map_cons]

/-- The canonical text of an expression. -/
def render (e : Expr) : String := String.ofList (e.lexemes.flatMap Lexeme.spaced)

end Expr
end EdgeExpression
