/-!
# Arguments of the command line

The arguments name an action and the expressions to act on. Options may stand
anywhere in front of a double dash; behind it every argument is an expression, even
one that looks like an option. The first argument from the left that is an error or
asks for help decides, whatever stands behind it.

More of the log can be wished for with every request, and the more often the wish is
repeated, the more of it is written. What is requested does not depend on it.
-/
namespace EdgeExpression.CommandLine

/-- What is done with each expression. -/
inductive Action where
  /-- Show its outline. -/
  | outline
  /-- List its tokens, with the source text of each if that is wanted. -/
  | tokens (mapped : Bool)
  /-- Write its canonical text. -/
  | format
  /-- Tell whether its text is canonical. -/
  | check
deriving Repr, DecidableEq, Inhabited

/-- What the arguments ask for. -/
inductive Request where
  | run (action : Action) (expressions : List String)
  | help
  /-- The arguments are not understood. -/
  | usage
deriving Repr, DecidableEq, Inhabited

/-- What an argument in front of a double dash may be. -/
inductive Argument where
  /-- Not an option: a command or an expression. -/
  | value
  /-- The double dash. -/
  | separator
  /-- A wish for more of the log, as often as it is repeated. -/
  | verbose (count : Nat)
  | sourceMap
  | help
  | unknown
deriving Repr, DecidableEq, Inhabited

/-- A run of options of one letter behind a single dash. -/
def Argument.ofLetters (letters : List Char) : Argument :=
  match letters.dropWhile (· == 'v') with
  | [] => .verbose letters.length
  | 'h' :: _ => .help
  | _ => .unknown

/-- What an argument is. A single dash and the empty argument are no options. -/
def Argument.ofString (argument : String) : Argument :=
  if argument = "--" then .separator
  else if argument = "--verbose" then .verbose 1
  else if argument = "--source-map" then .sourceMap
  else if argument = "--help" then .help
  else match argument.toList with
    | '-' :: c :: letters => ofLetters (c :: letters)
    | _ => .value

namespace Action

/-- The action of a command. -/
def ofCommand? (command : String) : Option Action :=
  if command = "parse" then some .outline
  else if command = "tokens" then some (.tokens false)
  else if command = "fmt" then some .format
  else if command = "check" then some .check
  else none

/-- The action with the source text of tokens, which only a list of tokens can show
and which can be asked for once. -/
def withSourceMap? : Action → Option Action
  | .tokens false => some (.tokens true)
  | _ => none

end Action

namespace Request

/-- The request with one more expression in front. -/
def addExpression (expression : String) : Request → Request
  | .run action expressions => .run action (expression :: expressions)
  | other => other

/-- The request of the arguments behind a command. -/
def ofOptions (action : Action) : List String → Request
  | [] => .run action []
  | argument :: rest =>
      match Argument.ofString argument with
      | .value => (ofOptions action rest).addExpression argument
      | .separator => .run action rest
      | .verbose _ => ofOptions action rest
      | .sourceMap =>
          match action.withSourceMap? with
          | some action => ofOptions action rest
          | none => .usage
      | .help => .help
      | .unknown => .usage

/-- The request of the arguments behind a command that asks for help: one command may
be named. -/
def ofHelp : List String → Request
  | [] => .help
  | [command] =>
      if command = "help" || (Action.ofCommand? command).isSome then .help else .usage
  | _ => .usage

/-- The request of a command and the arguments behind it. -/
def ofCommand (command : String) (rest : List String) : Request :=
  match Action.ofCommand? command with
  | some action => ofOptions action rest
  | none => if command = "help" then ofHelp rest else .usage

/-- The request of all arguments. -/
def ofArguments : List String → Request
  | [] => .usage
  | argument :: rest =>
      match Argument.ofString argument with
      | .value => ofCommand argument rest
      | .verbose _ => ofArguments rest
      | .help => .help
      | _ => .usage

/-- How often more of the log is wished for, up to the double dash. -/
def wishes : List String → Nat
  | [] => 0
  | argument :: rest =>
      match Argument.ofString argument with
      | .verbose count => count + wishes rest
      | .separator => 0
      | _ => wishes rest

/-- How much of the log is wanted. Wishes behind the command replace those in front of it. -/
def verbosity (arguments : List String) : Nat :=
  let (front, rest) := arguments.span fun argument =>
    Argument.ofString argument matches .verbose _
  let behind := wishes rest.tail
  if behind = 0 then wishes front else behind

end Request
end EdgeExpression.CommandLine
