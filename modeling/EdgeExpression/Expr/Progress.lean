import EdgeExpression.Expr
import EdgeExpression.Lexeme
import EdgeExpression.Text.Decimal

/-!
# Reading an expression, lexeme by lexeme

A reading in progress is known by what it waits for next and by the frames around
it: everything that was begun and is not complete, the innermost first. Each lexeme
either takes the reading one step further or cannot stand there. Whether it can is
decided by the reading so far alone, so the lexeme that is refused is the first one
at which no expression can be read any more.

Connectives bind loosest and chain to the right; comparisons bind tighter and do not
chain; negation binds tightest. Groups, calls, arrays, objects, negations and the
right sides of connectives nest, and nesting deeper than a limit is refused at the
lexeme that would open the excess level.
-/
namespace EdgeExpression

/-- Something that was begun and waits for the expression being read. Lists hold what
is complete of them, the last part first. -/
inductive Frame where
  | group
  | call (callee : String) (done : List Expr)
  | array (done : List Expr)
  | object (done : List (String × Expr)) (key : String)
  | not
  | comparison (left : Expr) (operator : Comparison)
  | logical (left : Expr) (operator : Connective)
deriving Repr, DecidableEq, Inhabited

/-- Every frame but that of a comparison is a level of nesting. -/
def Frame.nests : Frame → Bool
  | .comparison _ _ => false
  | _ => true

/-- The levels of nesting that are open. -/
def depth (frames : List Frame) : Nat := frames.countP Frame.nests

/-- The reading of an expression between two lexemes, by what is due next. -/
inductive Progress where
  /-- An operand, or the closing lexeme of a call or an array without any part. -/
  | operand (frames : List Frame)
  /-- An operator, a comma or a closing lexeme, behind an operand. -/
  | after (operand : Expr) (frames : List Frame)
  /-- A key of an object, or the closing brace of an object without entries. -/
  | entry (done : List (String × Expr)) (frames : List Frame)
  /-- The colon behind a key of an object. -/
  | colon (done : List (String × Expr)) (key : String) (frames : List Frame)
  /-- The key of a member. -/
  | memberKey (owner : String) (frames : List Frame)
  /-- The closing brace of a member. -/
  | memberBrace (member : Expr) (frames : List Frame)
  /-- The closing parenthesis of a member. -/
  | memberParen (member : Expr) (frames : List Frame)
deriving Repr, DecidableEq, Inhabited

/-- What a lexeme means to a reading in progress. -/
inductive Verdict where
  /-- It belongs there, and the reading goes on. -/
  | next (progress : Progress)
  /-- It cannot stand there. -/
  | refused
  /-- A numeral can stand there, but not one of this value. -/
  | outOfRange
deriving Repr, DecidableEq, Inhabited

namespace Progress

/-- The reading behind a complete operand: the negations in front of it are complete
with it. -/
def complete : Expr → List Frame → Progress
  | e, .not :: frames => complete (.not e) frames
  | e, frames => .after e frames

/-- Completes the comparison whose right side an operand is, if it is one. -/
def closeComparison : Expr → List Frame → Expr × List Frame
  | right, .comparison left operator :: frames => (.comparison left operator right, frames)
  | e, frames => (e, frames)

/-- Completes the chain of connectives whose last condition is given, from right to
left. -/
def closeChain : Expr → List Frame → Expr × List Frame
  | right, .logical left operator :: frames => closeChain (.logical left operator right) frames
  | e, frames => (e, frames)

/-- Completes everything that ends with an operand, up to the innermost opening. -/
def closeOperators (e : Expr) (frames : List Frame) : Expr × List Frame :=
  closeChain (closeComparison e frames).1 (closeComparison e frames).2

/-- Opens one more level of nesting around a reading, unless the limit is reached. -/
def nest (limit : Nat) (frames : List Frame) (inner : Progress) : Verdict :=
  if depth frames < limit then .next inner else .refused

/-- A numeral in a place where one may stand. -/
def numeral (text : String) (use : Int64 → Progress) : Verdict :=
  match Decimal.toInt64? text with
  | some value => .next (use value)
  | none => .outOfRange

/-- A lexeme where an operand is due. -/
def beginOperand (limit : Nat) (frames : List Frame) : Lexeme → Verdict
  | .literal value => .next (complete (.text value) frames)
  | .number text => numeral text fun value => complete (.number value) frames
  | .variable name => .next (complete (.variable name) frames)
  | .member owner => .next (.memberKey owner frames)
  | .call callee => nest limit frames (.operand (.call callee [] :: frames))
  | .openParen => nest limit frames (.operand (.group :: frames))
  | .openBracket => nest limit frames (.operand (.array [] :: frames))
  | .openBrace => nest limit frames (.entry [] frames)
  | .not => nest limit frames (.operand (.not :: frames))
  | .closeParen =>
      match frames with
      | .call callee [] :: outer => .next (complete (.call callee []) outer)
      | _ => .refused
  | .closeBracket =>
      match frames with
      | .array [] :: outer => .next (complete (.array []) outer)
      | _ => .refused
  | _ => .refused

/-- A comma or a closing lexeme behind a complete expression, by the innermost
opening. -/
def endPart : Lexeme → Expr → List Frame → Verdict
  | .closeParen, e, .group :: outer => .next (complete e outer)
  | .closeParen, e, .call callee done :: outer =>
      .next (complete (.call callee (e :: done).reverse) outer)
  | .closeBracket, e, .array done :: outer =>
      .next (complete (.array (e :: done).reverse) outer)
  | .closeBrace, e, .object done key :: outer =>
      .next (complete (.object ((key, e) :: done).reverse) outer)
  | .comma, e, .call callee done :: outer => .next (.operand (.call callee (e :: done) :: outer))
  | .comma, e, .array done :: outer => .next (.operand (.array (e :: done) :: outer))
  | .comma, e, .object done key :: outer => .next (.entry ((key, e) :: done) outer)
  | _, _, _ => .refused

/-- A lexeme behind an operand. A second comparison is refused, since comparisons do
not chain; a connective completes a comparison in front of it. -/
def endOperand (limit : Nat) (e : Expr) (frames : List Frame) : Lexeme → Verdict
  | .comparison operator =>
      match frames with
      | .comparison _ _ :: _ => .refused
      | _ => .next (.operand (.comparison e operator :: frames))
  | .connective operator =>
      nest limit (closeComparison e frames).2
        (.operand (.logical (closeComparison e frames).1 operator ::
          (closeComparison e frames).2))
  | other => endPart other (closeOperators e frames).1 (closeOperators e frames).2

/-- What the next lexeme means to a reading. -/
def step (limit : Nat) : Progress → Lexeme → Verdict
  | .operand frames, lexeme => beginOperand limit frames lexeme
  | .after e frames, lexeme => endOperand limit e frames lexeme
  | .entry done frames, .literal key => .next (.colon done key frames)
  | .entry [] frames, .closeBrace => .next (complete (.object []) frames)
  | .colon done key frames, .colon => .next (.operand (.object done key :: frames))
  | .memberKey owner frames, .literal key => .next (.memberBrace (.member owner (.name key)) frames)
  | .memberKey owner frames, .number text =>
      numeral text fun value => .memberBrace (.member owner (.index value)) frames
  | .memberBrace member frames, .closeBrace => .next (.memberParen member frames)
  | .memberParen member frames, .closeParen => .next (complete member frames)
  | _, _ => .refused

/-- The expression of a reading at the end of the text, if it is complete there. -/
def finish : Progress → Option Expr
  | .after e frames =>
      if (closeOperators e frames).2.isEmpty then
        some (closeOperators e frames).1
      else none
  | _ => none

end Progress
end EdgeExpression
