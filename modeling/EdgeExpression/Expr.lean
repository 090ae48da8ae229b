import EdgeExpression.Operator

/-!
# Expressions

An expression is a value, a reference to the surroundings in which it will be
evaluated, or is composed of smaller expressions. Groups in parentheses do not
occur: they only decide which expression a text stands for.

Every combination of constructors is an expression. Some have no text of their own,
such as one with a variable whose name is empty; which ones do have a text is the
concern of printing and parsing.
-/
namespace EdgeExpression

/-- What is looked up in a member: a name or an index. -/
inductive Key where
  | name (text : String)
  | index (value : Int64)
deriving Repr, DecidableEq, Inhabited

/-- An expression. -/
inductive Expr where
  /-- A text value. -/
  | text (value : String)
  /-- A number value. -/
  | number (value : Int64)
  /-- A variable of the surroundings. -/
  | variable (name : String)
  /-- One entry of a variable that holds several. -/
  | member (owner : String) (key : Key)
  /-- A function of the surroundings, applied. -/
  | call (callee : String) (arguments : List Expr)
  | array (elements : List Expr)
  /-- Entries in their order; a key may occur more than once. -/
  | object (entries : List (String × Expr))
  | not (operand : Expr)
  | comparison (left : Expr) (operator : Comparison) (right : Expr)
  | logical (left : Expr) (operator : Connective) (right : Expr)
deriving Repr, Inhabited

namespace Expr

/-- The name of an expression's kind. -/
def kindName : Expr → String
  | .text _ | .number _ => "Literal"
  | .variable _ => "Identifier"
  | .member _ _ => "MemberExpression"
  | .call _ _ => "CallExpression"
  | .array _ => "ArrayExpression"
  | .object _ => "ObjectExpression"
  | .not _ => "UnaryExpression"
  | .comparison _ _ _ => "BinaryExpression"
  | .logical _ _ _ => "LogicalExpression"

/-- True of expressions whose last step joins two conditions. -/
def isLogical : Expr → Bool
  | .logical _ _ _ => true
  | _ => false

/-- True of expressions whose last step stands between two operands. -/
def isInfix : Expr → Bool
  | .comparison _ _ _ | .logical _ _ _ => true
  | _ => false

/-! ## Equality -/

mutual

/-- Whether two expressions are composed alike of the same parts. -/
def same : Expr → Expr → Bool
  | .text value, .text other => value == other
  | .number value, .number other => value == other
  | .variable name, .variable other => name == other
  | .member owner key, .member otherOwner otherKey =>
      owner == otherOwner && key == otherKey
  | .call callee arguments, .call otherCallee otherArguments =>
      callee == otherCallee && sameAll arguments otherArguments
  | .array elements, .array others => sameAll elements others
  | .object entries, .object others => sameEntries entries others
  | .not operand, .not other => operand.same other
  | .comparison left operator right, .comparison otherLeft otherOperator otherRight =>
      operator == otherOperator && left.same otherLeft && right.same otherRight
  | .logical left operator right, .logical otherLeft otherOperator otherRight =>
      operator == otherOperator && left.same otherLeft && right.same otherRight
  | _, _ => false
termination_by structural e => e

/-- Whether two lists hold the same expressions in the same order. -/
def sameAll : List Expr → List Expr → Bool
  | [], [] => true
  | e :: rest, other :: others => e.same other && sameAll rest others
  | _, _ => false
termination_by structural list => list

/-- Whether two lists hold the same entries in the same order. -/
def sameEntries : List (String × Expr) → List (String × Expr) → Bool
  | [], [] => true
  | (key, e) :: rest, (otherKey, other) :: others =>
      key == otherKey && e.same other && sameEntries rest others
  | _, _ => false
termination_by structural list => list

end

mutual

/-- The test for equality tells equal expressions from others. -/
theorem same_iff : ∀ e other : Expr, e.same other = true ↔ e = other
  | .text _, other => by cases other <;> simp [same]
  | .number _, other => by cases other <;> simp [same]
  | .variable _, other => by cases other <;> simp [same]
  | .member _ _, other => by cases other <;> simp [same]
  | .call _ arguments, other => by cases other <;> simp [same, sameAll_iff arguments]
  | .array elements, other => by cases other <;> simp [same, sameAll_iff elements]
  | .object entries, other => by cases other <;> simp [same, sameEntries_iff entries]
  | .not operand, other => by cases other <;> simp [same, same_iff operand]
  | .comparison left _ right, other => by
      cases other <;> simp [same, same_iff left, same_iff right, and_assoc, and_left_comm]
  | .logical left _ right, other => by
      cases other <;> simp [same, same_iff left, same_iff right, and_assoc, and_left_comm]

/-- The test for equality tells equal lists from others. -/
theorem sameAll_iff : ∀ list other : List Expr, sameAll list other = true ↔ list = other
  | [], other => by cases other <;> simp [sameAll]
  | e :: rest, other => by cases other <;> simp [sameAll, same_iff e, sameAll_iff rest]

/-- The test for equality tells equal entries from others. -/
theorem sameEntries_iff :
    ∀ list other : List (String × Expr), sameEntries list other = true ↔ list = other
  | [], other => by cases other <;> simp [sameEntries]
  | (key, e) :: rest, other => by
      rcases other with _ | ⟨⟨otherKey, other⟩, others⟩
      · simp [sameEntries]
      · simp [sameEntries, same_iff e, sameEntries_iff rest, and_assoc]

end

instance : DecidableEq Expr := fun e other =>
  decidable_of_iff (e.same other = true) (same_iff e other)

/-! ## Induction -/

/-- A property of all expressions may be assumed of every part when it is proved of an
expression with several parts. -/
@[elab_as_elim]
theorem parts_induction {motive : Expr → Prop}
    (text : ∀ value, motive (.text value))
    (number : ∀ value, motive (.number value))
    (variableName : ∀ name, motive (.variable name))
    (member : ∀ owner key, motive (.member owner key))
    (call : ∀ callee arguments, (∀ e ∈ arguments, motive e) → motive (.call callee arguments))
    (array : ∀ elements, (∀ e ∈ elements, motive e) → motive (.array elements))
    (object : ∀ entries : List (String × Expr), (∀ entry ∈ entries, motive entry.2) →
      motive (.object entries))
    (not : ∀ operand, motive operand → motive (.not operand))
    (comparison : ∀ left operator right, motive left → motive right →
      motive (.comparison left operator right))
    (logical : ∀ left operator right, motive left → motive right →
      motive (.logical left operator right)) (e : Expr) : motive e :=
  @Expr.rec motive (fun list => ∀ e ∈ list, motive e)
    (fun entries => ∀ entry ∈ entries, motive entry.2) (fun entry => motive entry.2)
    text number variableName member call array object not comparison logical
    (by simp) (fun _ _ first rest => List.forall_mem_cons.mpr ⟨first, rest⟩)
    (by simp) (fun _ _ first rest => List.forall_mem_cons.mpr ⟨first, rest⟩)
    (fun _ _ value => value) e

end Expr
end EdgeExpression
