import EdgeExpression.Expr
import EdgeExpression.Text.Decimal
import EdgeExpression.Text.Layout
import EdgeExpression.Text.Quoted

/-!
# Outlines of expressions

The outline of an expression shows its whole structure, part by part. Texts and
names are quoted, and operators are shown by their names. Which characters are hidden
in quoted text is given.
-/
namespace EdgeExpression

variable (hidden : Char → Bool)

/-- The outline of a name. -/
def nameLayout (name : String) : Layout :=
  .record "Identifier" [("name", .atom (Quoted.encode hidden name))]

/-- The outline of a key in a member. -/
def Key.layout : Key → Layout
  | .name text => .wrapped "Identifier" (nameLayout hidden text)
  | .index value => .wrapped "Index" (.atom (Decimal.ofInt64 value))

namespace Expr

mutual

/-- The outline of an expression. -/
def layout : Expr → Layout
  | .text value => .wrapped "Literal" (.wrapped "String" (.atom (Quoted.encode hidden value)))
  | .number value => .wrapped "Literal" (.wrapped "Number" (.atom (Decimal.ofInt64 value)))
  | .variable name => .wrapped "Identifier" (nameLayout hidden name)
  | .member owner key =>
      .record "MemberExpression"
        [("object", nameLayout hidden owner), ("property", key.layout hidden)]
  | .call callee arguments =>
      .record "CallExpression"
        [("callee", nameLayout hidden callee), ("arguments", .list (layoutEach arguments))]
  | .array elements => .record "ArrayExpression" [("elements", .list (layoutEach elements))]
  | .object entries => .record "ObjectExpression" [("properties", .list (entryLayouts entries))]
  | .not operand =>
      .record "UnaryExpression" [("operator", .atom "Not"), ("argument", operand.layout)]
  | .comparison left operator right =>
      .record "BinaryExpression"
        [("operator", .atom operator.name), ("left", left.layout), ("right", right.layout)]
  | .logical left operator right =>
      .record "LogicalExpression"
        [("operator", .atom operator.name), ("left", left.layout), ("right", right.layout)]
termination_by structural e => e

/-- The outline of each expression of a list. -/
def layoutEach : List Expr → List Layout
  | [] => []
  | e :: rest => e.layout :: layoutEach rest
termination_by structural list => list

/-- The outline of each entry of an object. -/
def entryLayouts : List (String × Expr) → List Layout
  | [] => []
  | (key, e) :: rest =>
      .record "ObjectProperty" [("key", .atom (Quoted.encode hidden key)), ("value", e.layout)] ::
        entryLayouts rest
termination_by structural list => list

end

/-- The outline of an expression as text. -/
def outline (e : Expr) : String := (e.layout hidden).render 0

end Expr
end EdgeExpression
