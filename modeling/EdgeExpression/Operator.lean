/-!
# Operators with two operands

Comparisons weigh two values; connectives join two conditions. Each operator has one
symbol, and a symbol belongs to at most one operator. The single and doubled symbols
of a connective mean the same and are kept apart only so that text can be reproduced.
-/
namespace EdgeExpression

/-- The comparisons of two values. -/
inductive Comparison where
  | equal | notEqual | less | lessOrEqual | greater | greaterOrEqual
deriving Repr, DecidableEq, Inhabited

namespace Comparison

/-- Every comparison once. -/
def all : List Comparison := [equal, notEqual, less, lessOrEqual, greater, greaterOrEqual]

/-- The symbol that stands between the two values. -/
def symbol : Comparison → String
  | equal => "=="
  | notEqual => "!="
  | less => "<"
  | lessOrEqual => "<="
  | greater => ">"
  | greaterOrEqual => ">="

/-- The comparison with a given symbol. -/
def ofSymbol? (symbol : String) : Option Comparison :=
  all.find? fun comparison => comparison.symbol == symbol

/-- The name of a comparison in outlines. -/
def name : Comparison → String
  | equal => "Equal"
  | notEqual => "NotEqual"
  | less => "Less"
  | lessOrEqual => "LessOrEqual"
  | greater => "Greater"
  | greaterOrEqual => "GreaterOrEqual"

/-- Every operator is found by its own symbol. -/
theorem ofSymbol?_symbol (comparison : Comparison) :
    ofSymbol? comparison.symbol = some comparison := by
  cases comparison <;> decide

/-- A symbol is read only as the comparison written so. -/
theorem symbol_of_ofSymbol? {text : String} {comparison : Comparison}
    (known : ofSymbol? text = some comparison) : comparison.symbol = text := by
  simpa using List.find?_some known

end Comparison

/-- The connectives of two conditions. -/
inductive Connective where
  | and | doubleAnd | or | doubleOr
deriving Repr, DecidableEq, Inhabited

namespace Connective

/-- Every connective once. -/
def all : List Connective := [and, doubleAnd, or, doubleOr]

/-- The symbol that stands between the two conditions. -/
def symbol : Connective → String
  | and => "&"
  | doubleAnd => "&&"
  | or => "|"
  | doubleOr => "||"

/-- The connective with a given symbol. -/
def ofSymbol? (symbol : String) : Option Connective :=
  all.find? fun connective => connective.symbol == symbol

/-- The name of a connective in outlines. -/
def name : Connective → String
  | and => "And"
  | doubleAnd => "DoubleAnd"
  | or => "Or"
  | doubleOr => "DoubleOr"

/-- A conjunction demands both conditions; the other connectives demand one. -/
def isConjunction : Connective → Bool
  | and | doubleAnd => true
  | or | doubleOr => false

/-- Every operator is found by its own symbol. -/
theorem ofSymbol?_symbol (connective : Connective) :
    ofSymbol? connective.symbol = some connective := by
  cases connective <;> decide

/-- A symbol is read only as the connective written so. -/
theorem symbol_of_ofSymbol? {text : String} {connective : Connective}
    (known : ofSymbol? text = some connective) : connective.symbol = text := by
  simpa using List.find?_some known

end Connective

/-- The symbol of negation, the one operator with a single operand. -/
def negationSymbol : String := "!"

end EdgeExpression
