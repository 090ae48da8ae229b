import EdgeExpression.CommandLine.Input
import EdgeExpression.CommandLine.Request
import EdgeExpression.Expr.Outline
import EdgeExpression.Expr.Parser
import EdgeExpression.Expr.Printer
import EdgeExpression.Text.Hidden

/-!
# What a run of the command line prints

Expressions are handled one after the other and independently: a run's output is the
output for each expression in turn, and it fails if any of them failed. Expressions
that are not given as arguments are the lines of standard input that are not empty.
They are read to the end before the first of them is handled, so if one of the lines is
not UTF-8, no expression is handled at all.

Quoted text is printed for the version of Unicode that is in use, unless it is said which
characters are hidden.
-/
namespace EdgeExpression.CommandLine

/-- What a run leaves behind. -/
structure Outcome where
  /-- The exit code: 0 for success, 1 if an expression failed, 2 if there was nothing
  to work on. -/
  code : Nat
  stdout : String
  /-- What is said on standard error about the expressions, without the lines of the log. -/
  stderr : String
deriving Repr, DecidableEq, Inhabited

namespace Outcome

/-- The outcome of handling nothing. -/
def empty : Outcome := ⟨0, "", ""⟩

/-- Text on standard output. -/
def printed (text : String) : Outcome := ⟨0, text, ""⟩

/-- A remark on standard error that is no failure. -/
def noted (text : String) : Outcome := ⟨0, "", text⟩

/-- A failure that is told on standard error. -/
def failed (text : String) : Outcome := ⟨1, "", text⟩

/-- One outcome behind another: the outputs follow each other, and the worse code
stands. -/
def append (first second : Outcome) : Outcome :=
  ⟨max first.code second.code, first.stdout ++ second.stdout, first.stderr ++ second.stderr⟩

end Outcome

/-- A line about an expression on standard error. -/
def remark (expression about : String) : String := expression ++ ": " ++ about ++ "\n"

/-- The line of a token in a listing: its kind, what it carries, its place, and its
source text if it is recorded, separated by tabulators. -/
def tokenLine (hidden : Char → Bool) (token : Token) : String :=
  token.content.kindName ++ "\t" ++ Quoted.encode hidden token.content.cargo ++ "\t" ++
    token.position.text ++
    (match token.raw with
      | some raw => "\t" ++ Quoted.encode hidden raw
      | none => "") ++ "\n"

/-- The outcome for an expression's text that must be read first. -/
def withExpr (expression : String) (use : Expr → Outcome) : Outcome :=
  match Expr.ofString expression with
  | .ok e => use e
  | .error error => .failed (remark expression error.message)

/-- The outcome of an action on one expression. -/
def Action.perform (action : Action) (expression : String)
    (hidden : Char → Bool := Quoted.isHidden) : Outcome :=
  match action with
  | .outline => withExpr expression fun e => .printed (e.outline hidden ++ "\n")
  | .format => withExpr expression fun e => .printed (e.render ++ "\n")
  | .check => withExpr expression fun e =>
      if e.render = expression then .noted (remark expression "formatted")
      else .failed (remark expression "not formatted")
  | .tokens mapped =>
      match tokenize expression mapped with
      | .ok found => .printed (String.join (found.map (tokenLine hidden)))
      | .error error => .failed (remark expression error.message)

/-- The outcome of an action on expressions, one after the other. -/
def Action.performAll (action : Action) (expressions : List String)
    (hidden : Char → Bool := Quoted.isHidden) : Outcome :=
  (expressions.map (action.perform · hidden)).foldl .append .empty

/-- The outcome of a run whose standard input could not be read. -/
def invalidInput : Outcome := ⟨2, "", "stdin: stream did not contain valid UTF-8\n"⟩

/-- The outcome of an action on the expressions given as arguments, or on those of
standard input if there are none. -/
def Action.outcome (action : Action) (expressions : List String) (stdin : ByteArray)
    (hidden : Char → Bool := Quoted.isHidden) : Outcome :=
  match handled? expressions stdin with
  | some handled => action.performAll handled hidden
  | none => invalidInput

end EdgeExpression.CommandLine
