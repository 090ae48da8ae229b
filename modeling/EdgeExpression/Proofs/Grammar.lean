import EdgeExpression.Expr
import EdgeExpression.Lexeme
import EdgeExpression.Text.Decimal
import Mathlib.Algebra.Group.Int.Defs
import Mathlib.Data.List.Basic

/-!
# The grammar of expressions

The grammar says which sequences of lexemes stand for which expression, without regard
to how they are found out. Its four tiers bind ever tighter, and every tier carries the
number of levels of nesting around it:

    logical(d)    ::= comparison(d) | comparison(d) CONNECTIVE logical(d + 1)
    comparison(d) ::= unary(d) | unary(d) COMPARISON unary(d)
    unary(d)      ::= "!" unary(d + 1) | primary(d)
    primary(d)    ::= "(" logical(d + 1) ")" | VARIABLE | MEMBER (LITERAL | NUMBER) "}" ")"
                    | CALL list(d + 1) ")" | "[" list(d + 1) "]"
                    | "{" entries(d + 1) "}" | LITERAL | NUMBER

A list is empty or consists of logical(d) with commas in between, and entries are the
same with a literal and a colon in front of each part; there is no comma behind the last
part. No level may lie deeper than a given limit, and numbers must fit 64 bits. Groups
leave no trace in the expression, connectives associate to the right, and comparisons
do not associate.
-/
namespace EdgeExpression

/-- A numeral denotes a signed 64-bit integer if its value is within range and is that
integer. -/
def Decimal.Denotes (numeral : String) (v : Int64) : Prop :=
  -2 ^ 63 ≤ value numeral.toList ∧ value numeral.toList ≤ 2 ^ 63 - 1 ∧
    v.toInt = value numeral.toList

/-- A numeral is read as the number that it denotes, and as no other one. -/
theorem Decimal.toInt64?_eq_some_iff (numeral : String) (v : Int64) :
    toInt64? numeral = some v ↔ Denotes numeral v := by
  constructor
  · intro read
    have exact := toInt_of_toInt64? read
    obtain ⟨least, greatest⟩ := exact ▸ inRange_toInt v
    exact ⟨least, greatest, exact⟩
  · rintro ⟨least, greatest, exact⟩
    rw [toInt64?, if_pos ⟨least, greatest⟩, ← exact, Int64.ofInt_toInt]

/-- The tiers of the grammar, from the one that binds loosest. -/
inductive Tier where
  | logical | comparison | unary | primary
deriving DecidableEq

/-- Parts of a list with commas in between. -/
def separated (parts : List (List Lexeme)) : List Lexeme := [Lexeme.comma].intercalate parts

/-- An entry of an object: its key, a colon and the lexemes of its value. -/
def entryPart (entry : String × List Lexeme × Expr) : List Lexeme :=
  .literal entry.1 :: .colon :: entry.2.1

/-- Lexemes stand for an expression on a tier of the grammar, within some levels of
nesting and not deeper than the limit. -/
inductive Derives (limit : Nat) : Tier → Nat → List Lexeme → Expr → Prop where
  | ofComparison {d : Nat} {ls : List Lexeme} {e : Expr} :
      Derives limit .comparison d ls e → Derives limit .logical d ls e
  | logical {d : Nat} {ls rs : List Lexeme} {left right : Expr} {operator : Connective} :
      Derives limit .comparison d ls left → d + 1 ≤ limit →
      Derives limit .logical (d + 1) rs right →
      Derives limit .logical d (ls ++ .connective operator :: rs) (.logical left operator right)
  | ofUnary {d : Nat} {ls : List Lexeme} {e : Expr} :
      Derives limit .unary d ls e → Derives limit .comparison d ls e
  | comparison {d : Nat} {ls rs : List Lexeme} {left right : Expr} {operator : Comparison} :
      Derives limit .unary d ls left → Derives limit .unary d rs right →
      Derives limit .comparison d (ls ++ .comparison operator :: rs)
        (.comparison left operator right)
  | not {d : Nat} {ls : List Lexeme} {e : Expr} :
      d + 1 ≤ limit → Derives limit .unary (d + 1) ls e →
      Derives limit .unary d (.not :: ls) (.not e)
  | ofPrimary {d : Nat} {ls : List Lexeme} {e : Expr} :
      Derives limit .primary d ls e → Derives limit .unary d ls e
  | group {d : Nat} {ls : List Lexeme} {e : Expr} :
      d + 1 ≤ limit → Derives limit .logical (d + 1) ls e →
      Derives limit .primary d (.openParen :: ls ++ [.closeParen]) e
  | variableName {d : Nat} {name : String} :
      Derives limit .primary d [.variable name] (.variable name)
  | memberName {d : Nat} {owner key : String} :
      Derives limit .primary d [.member owner, .literal key, .closeBrace, .closeParen]
        (.member owner (.name key))
  | memberIndex {d : Nat} {owner numeral : String} {v : Int64} :
      Decimal.Denotes numeral v →
      Derives limit .primary d [.member owner, .number numeral, .closeBrace, .closeParen]
        (.member owner (.index v))
  | call {d : Nat} {callee : String} {parts : List (List Lexeme × Expr)} :
      d + 1 ≤ limit → (∀ part ∈ parts, Derives limit .logical (d + 1) part.1 part.2) →
      Derives limit .primary d
        (.call callee :: separated (parts.map Prod.fst) ++ [.closeParen])
        (.call callee (parts.map Prod.snd))
  | array {d : Nat} {parts : List (List Lexeme × Expr)} :
      d + 1 ≤ limit → (∀ part ∈ parts, Derives limit .logical (d + 1) part.1 part.2) →
      Derives limit .primary d
        (.openBracket :: separated (parts.map Prod.fst) ++ [.closeBracket])
        (.array (parts.map Prod.snd))
  | object {d : Nat} {entries : List (String × List Lexeme × Expr)} :
      d + 1 ≤ limit →
      (∀ entry ∈ entries, Derives limit .logical (d + 1) entry.2.1 entry.2.2) →
      Derives limit .primary d
        (.openBrace :: separated (entries.map entryPart) ++ [.closeBrace])
        (.object (entries.map fun entry => (entry.1, entry.2.2)))
  | text {d : Nat} {value : String} : Derives limit .primary d [.literal value] (.text value)
  | number {d : Nat} {numeral : String} {v : Int64} :
      Decimal.Denotes numeral v → Derives limit .primary d [.number numeral] (.number v)

/-! ## Lists with commas -/

/-- A list without parts has no lexemes. -/
@[simp] theorem separated_nil : separated [] = [] := rfl

/-- One part has no comma. -/
@[simp] theorem separated_singleton (part : List Lexeme) : separated [part] = part := by
  simp [separated]

/-- There is a comma between a part and the next one. -/
@[simp] theorem separated_cons_cons (part next : List Lexeme) (rest : List (List Lexeme)) :
    separated (part :: next :: rest) = part ++ .comma :: separated (next :: rest) := by
  simp [separated]

/-- A list with one more part at the end: every part before it has its separator. -/
theorem intercalate_concat {α : Type} (separator : List α) (parts : List (List α))
    (last : List α) :
    separator.intercalate (parts ++ [last]) = parts.flatMap (· ++ separator) ++ last := by
  induction parts with
  | nil => simp
  | cons part rest induction =>
      have nonempty : rest ++ [last] ≠ [] := by simp
      rw [List.cons_append, List.intercalate_cons_of_ne_nil nonempty, induction]
      simp

/-- There is a comma behind every part but the last one. -/
theorem separated_concat (parts : List (List Lexeme)) (last : List Lexeme) :
    separated (parts ++ [last]) = parts.flatMap (· ++ [.comma]) ++ last :=
  intercalate_concat _ parts last

/-- Everything in a list with a separator has a property if the separator and all parts do. -/
theorem forall_mem_intercalate {α : Type} {P : α → Prop} {separator : List α}
    (inside : ∀ x ∈ separator, P x) (parts : List (List α)) :
    (∀ x ∈ separator.intercalate parts, P x) ↔ ∀ part ∈ parts, ∀ x ∈ part, P x := by
  induction parts with
  | nil => simp
  | cons part rest induction =>
      cases rest with
      | nil => simp
      | cons next rest =>
          rw [List.intercalate_cons_cons, List.forall_mem_append, List.forall_mem_append,
            and_iff_left inside, induction]
          conv_rhs => rw [List.forall_mem_cons]

/-- What is put in the place of each element goes through to the separator and to the parts. -/
theorem flatMap_intercalate {α β : Type} (f : α → List β) (separator : List α)
    (parts : List (List α)) :
    (separator.intercalate parts).flatMap f =
      (separator.flatMap f).intercalate (parts.map (List.flatMap f)) := by
  induction parts with
  | nil => simp
  | cons part rest induction =>
      cases rest with
      | nil => simp
      | cons next rest =>
          rw [List.intercalate_cons_cons, List.flatMap_append, List.flatMap_append, induction]
          simp [List.intercalate_cons_cons]

/-- Mapping goes through to the separator and to the parts. -/
theorem map_intercalate {α β : Type} (f : α → β) (separator : List α) (parts : List (List α)) :
    (separator.intercalate parts).map f =
      (separator.map f).intercalate (parts.map (List.map f)) := by
  have single : List.flatMap (fun x => [f x]) = List.map f :=
    funext fun _ => List.map_eq_flatMap.symm
  have through := flatMap_intercalate (fun x => [f x]) separator parts
  rwa [single] at through

/-- All lexemes of a list have a property if the comma has it and those of all parts. -/
theorem forall_mem_separated {P : Lexeme → Prop} (comma : P .comma) (parts : List (List Lexeme)) :
    (∀ lexeme ∈ separated parts, P lexeme) ↔ ∀ part ∈ parts, ∀ lexeme ∈ part, P lexeme :=
  forall_mem_intercalate (List.forall_mem_singleton.mpr comma) parts

end EdgeExpression
