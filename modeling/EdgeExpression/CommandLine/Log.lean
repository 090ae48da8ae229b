import EdgeExpression.CommandLine.Outcome

/-!
# The log

Parsing a text is told to the log at its beginning, and once more if the text stands for no
expression. The lines of the log go to standard error as well, so they stand between the remarks on
the expressions: what is told while an expression is handled comes before the remark on it. Listing
tokens parses nothing, and tells nothing.

Which events are written is settled before a run: by how much of the log is wanted, or by a setting
of the environment that overrides it. How a line looks, and the time it begins with, is the matter
of the logger; here the events stand for themselves.
-/
namespace EdgeExpression.CommandLine

/-- What is told to the log. -/
inductive Event where
  /-- A text is going to be parsed. -/
  | parsing (input : String)
  /-- A text stands for no expression. -/
  | rejected (input error : String)
deriving Repr, DecidableEq, Inhabited

namespace Event

/-- How much of the log must be wanted for an event to be written. -/
def verbosity : Event → Nat
  | .parsing _ => 2
  | .rejected _ _ => 1

/-- What an event says, without the time, the level and the source that a logger adds. -/
def text : Event → String
  | .parsing input => "parsing esi expression input=" ++ Quoted.encode Quoted.isHidden input
  | .rejected input error =>
      "esi expression rejected input=" ++ Quoted.encode Quoted.isHidden input ++ " error=" ++ error

/-- The events of parsing a text. -/
def ofParsing (input : String) : List Event :=
  .parsing input ::
    match Expr.parse input with
    | .ok _ => []
    | .error error => [.rejected input error.message]

end Event

/-- The events of an action on one expression. -/
def Action.events (action : Action) (expression : String) : List Event :=
  match action with
  | .outline | .format | .check => Event.ofParsing expression
  | .tokens _ => []

/-- A part of what stands on standard error. -/
inductive Notice where
  | logged (event : Event)
  | remark (text : String)
deriving Repr, DecidableEq, Inhabited

/-- A notice as a text of whole lines. -/
def Notice.text : Notice → String
  | .logged event => event.text ++ "\n"
  | .remark text => text

/-- What a run leaves behind, with the lines of the log. -/
structure LoggedOutcome where
  code : Nat
  stdout : String
  stderr : List Notice
deriving Repr, DecidableEq, Inhabited

namespace Outcome

/-- The remarks of an outcome as a notice, unless there are none. -/
def remarks (outcome : Outcome) : List Notice :=
  if outcome.stderr = "" then [] else [.remark outcome.stderr]

/-- An outcome with the notices that stand on standard error. -/
def withNotices (outcome : Outcome) (stderr : List Notice) : LoggedOutcome :=
  ⟨outcome.code, outcome.stdout, stderr⟩

end Outcome

namespace Action

variable (action : Action) (wanted : Event → Bool) (hidden : Char → Bool)

/-- What an action on one expression writes to standard error, if these events are wanted. -/
def notices (expression : String) : List Notice :=
  ((action.events expression).filter wanted).map .logged ++
    (action.perform expression hidden).remarks

/-- The outcome of an action on one expression, with the lines of the log. -/
def performLogged (expression : String) : LoggedOutcome :=
  (action.perform expression hidden).withNotices (action.notices wanted hidden expression)

/-- The outcome of an action on the expressions of a run, with the lines of the log. -/
def loggedOutcome (expressions : List String) (stdin : ByteArray) : LoggedOutcome :=
  match handled? expressions stdin with
  | some handled =>
      (action.performAll handled hidden).withNotices
        (handled.flatMap (action.notices wanted hidden))
  | none => invalidInput.withNotices invalidInput.remarks

end Action
end EdgeExpression.CommandLine
