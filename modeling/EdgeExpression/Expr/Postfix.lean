import EdgeExpression.Expr.Parser

/-!
# Building expressions in postfix order

Expressions can be built on a stack, operands first. A step takes the expressions it
needs from the top, where the last one built lies, and leaves its result there. A
step that cannot be taken leaves the stack as it was; that too few expressions are
there is noticed before anything else.
-/
namespace EdgeExpression.Postfix

/-- One step of building. -/
inductive Step where
  /-- An expression without parts to take from the stack. -/
  | leaf (e : Expr)
  | call (callee : String) (count : Nat)
  | array (count : Nat)
  | object (keys : List String)
  | not
  | comparison (operator : Comparison)
  | logical (operator : Connective)
  /-- A comparison named by its symbol. -/
  | comparisonSymbol (symbol : String)
  /-- A connective named by its symbol. -/
  | logicalSymbol (symbol : String)
  | duplicate
  | discard
  | swap
  /-- An expression given by a text. -/
  | parse (source : String)
  /-- Compares the two expressions on the top and leaves them there. -/
  | equal
deriving Repr, Inhabited

/-- What became of a step. -/
inductive Result where
  /-- The stack has changed as the step demands. -/
  | done
  /-- The answer of a step that only asks. -/
  | answer (holds : Bool)
  | underflow
  | unknownOperator
  /-- The text of a step is no expression. -/
  | unreadable (error : Error)
deriving Repr, DecidableEq, Inhabited

/-- The expressions built so far, the last one first. -/
abbrev Stack := List Expr

/-- Takes a number of expressions off the stack and puts back what is made of them;
they are handed over in the order in which they were built. -/
def replace (count : Nat) (make : List Expr → Expr) (stack : Stack) : Result × Stack :=
  if count ≤ stack.length then
    (.done, make (stack.take count).reverse :: stack.drop count)
  else (.underflow, stack)

/-- Takes two operands off the stack, the right one on top, and puts back what is made
of them, if it is known what to make. -/
def join (make : Option (Expr → Expr → Expr)) : Stack → Result × Stack
  | right :: left :: rest =>
      match make with
      | some make => (.done, make left right :: rest)
      | none => (.unknownOperator, right :: left :: rest)
  | stack => (.underflow, stack)

/-- Makes a comparison of two operands. -/
def compare (operator : Comparison) (left right : Expr) : Expr := .comparison left operator right

/-- Makes a logical expression of two conditions. -/
def connect (operator : Connective) (left right : Expr) : Expr := .logical left operator right

/-- Takes one step. -/
def Step.apply : Step → Stack → Result × Stack
  | .leaf e, stack => (.done, e :: stack)
  | .call callee count, stack => replace count (.call callee) stack
  | .array count, stack => replace count .array stack
  | .object keys, stack => replace keys.length (fun values => .object (keys.zip values)) stack
  | .not, operand :: rest => (.done, .not operand :: rest)
  | .comparison operator, stack => join (some (compare operator)) stack
  | .logical operator, stack => join (some (connect operator)) stack
  | .comparisonSymbol symbol, stack => join ((Comparison.ofSymbol? symbol).map compare) stack
  | .logicalSymbol symbol, stack => join ((Connective.ofSymbol? symbol).map connect) stack
  | .duplicate, top :: rest => (.done, top :: top :: rest)
  | .discard, _ :: rest => (.done, rest)
  | .swap, top :: second :: rest => (.done, second :: top :: rest)
  | .parse source, stack =>
      match Expr.ofString source with
      | .ok e => (.done, e :: stack)
      | .error error => (.unreadable error, stack)
  | .equal, top :: second :: rest => (.answer (second == top), top :: second :: rest)
  | _, stack => (.underflow, stack)

/-- Takes steps one after the other; each result comes with the stack behind it. -/
def run : List Step → Stack → List (Result × Stack)
  | [], _ => []
  | step :: steps, stack => step.apply stack :: run steps (step.apply stack).2

end EdgeExpression.Postfix
