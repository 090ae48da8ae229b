import EdgeExpression.Expr.Printer
import EdgeExpression.Proofs.Grammar

/-!
# Levels of nesting

The level of an expression is the depth of nesting that its canonical text needs: each
call, array, object and negation opens a level for its parts, a connective opens one for
its right side, and so does every group that the printer must set.

No text of an expression gets by with fewer levels, whatever groups it has, and the
canonical text needs no more. So the level of an expression decides on its own whether
the grammar derives it within a limit.
-/
namespace EdgeExpression
namespace Expr

mutual

/-- The levels of nesting in an expression's canonical text. -/
def level : Expr → Nat
  | .call _ arguments => 1 + deepest arguments
  | .array elements => 1 + deepest elements
  | .object entries => 1 + deepestEntry entries
  | .not operand => 1 + (if operand.isInfix then 1 + operand.level else operand.level)
  | .comparison left _ right =>
      max (if left.isInfix then 1 + left.level else left.level)
        (if right.isInfix then 1 + right.level else right.level)
  | .logical left _ right =>
      max (if left.isLogical then 1 + left.level else left.level) (1 + right.level)
  | _ => 0
termination_by structural e => e

/-- The highest level in a list, and 0 in an empty one. -/
def deepest : List Expr → Nat
  | [] => 0
  | e :: rest => max e.level (deepest rest)
termination_by structural list => list

/-- The highest level among the values of entries, and 0 if there are none. -/
def deepestEntry : List (String × Expr) → Nat
  | [] => 0
  | (_, e) :: rest => max e.level (deepestEntry rest)
termination_by structural list => list

end

variable {d limit : Nat}

/-- The levels of a list are within a limit if those of each of its members are. -/
theorem add_deepest_le_iff (room : d ≤ limit) (list : List Expr) :
    d + deepest list ≤ limit ↔ ∀ e ∈ list, d + e.level ≤ limit := by
  induction list with
  | nil => simpa [deepest] using room
  | cons e rest induction =>
      rw [List.forall_mem_cons, ← induction, deepest]
      omega

/-- The levels of entries are within a limit if those of each of their values are. -/
theorem add_deepestEntry_le_iff (room : d ≤ limit) (entries : List (String × Expr)) :
    d + deepestEntry entries ≤ limit ↔ ∀ entry ∈ entries, d + entry.2.level ≤ limit := by
  induction entries with
  | nil => simpa [deepestEntry] using room
  | cons entry rest induction =>
      rw [List.forall_mem_cons, ← induction, deepestEntry]
      omega

/-- The tier of an expression's canonical text without a group around it. -/
def tier : Expr → Tier
  | .logical _ _ _ => .logical
  | .comparison _ _ _ => .comparison
  | .not _ => .unary
  | _ => .primary

end Expr

namespace Tier

/-- The operands that stand in a group on a tier. -/
def groups : Tier → Expr → Bool
  | .logical, _ => false
  | .comparison, e => e.isLogical
  | .unary, e | .primary, e => e.isInfix

/-- The levels of nesting in an operand's canonical text on a tier, with its group. -/
def level (tier : Tier) (e : Expr) : Nat := if tier.groups e then 1 + e.level else e.level

variable {tier : Tier} {e : Expr}

/-- An operand in a group opens one level more than alone. -/
theorem level_of_groups (grouped : tier.groups e = true) : tier.level e = 1 + e.level :=
  if_pos grouped

/-- An operand without a group opens as many levels as alone. -/
theorem level_of_not_groups (alone : tier.groups e = false) : tier.level e = e.level :=
  if_neg (by simp [alone])

/-- An operand opens at least as many levels as the expression alone. -/
theorem le_level (tier : Tier) (e : Expr) : e.level ≤ tier.level e := by
  unfold level
  split <;> omega

/-- An operand opens at most one level more than the expression alone. -/
theorem level_le_succ (tier : Tier) (e : Expr) : tier.level e ≤ 1 + e.level := by
  unfold level
  split <;> omega

/-- What stands in a group on a looser tier does so on a tighter one. -/
theorem level_comparison_le (e : Expr) : comparison.level e ≤ unary.level e := by
  cases e <;> simp [level, groups, Expr.isLogical, Expr.isInfix]

end Tier

namespace Expr

/-- A negation opens one level around its operand. -/
theorem level_not (operand : Expr) : (not operand).level = 1 + Tier.unary.level operand := rfl

/-- A comparison opens no level of its own. -/
theorem level_comparison (left right : Expr) (operator : Comparison) :
    (comparison left operator right).level =
      max (Tier.unary.level left) (Tier.unary.level right) := rfl

/-- A connective opens one level around its right side, and none around its left side. -/
theorem level_logical (left right : Expr) (operator : Connective) :
    (logical left operator right).level =
      max (Tier.comparison.level left) (1 + Tier.logical.level right) := rfl

end Expr

variable {limit : Nat}

/-- No text of an expression has fewer levels of nesting than its canonical one. Proof: by
induction on the derivation. Where the canonical text sets a group on a tighter tier,
the derivation must have gone through a group as well. -/
theorem level_le_of_derives {tier : Tier} {d : Nat} {ls : List Lexeme} {e : Expr}
    (derivation : Derives limit tier d ls e) (inside : d ≤ limit) : d + tier.level e ≤ limit := by
  induction derivation with
  | @ofComparison d ls e _ induction =>
      have bound := induction inside
      have least := Tier.comparison.le_level e
      rw [Tier.level_of_not_groups rfl]
      omega
  | logical _ room _ leftBound rightBound =>
      have left := leftBound inside
      have right := rightBound room
      rw [Tier.level_of_not_groups rfl, Expr.level_logical]
      omega
  | @ofUnary d ls e _ induction =>
      have bound := induction inside
      have least := Tier.level_comparison_le e
      omega
  | comparison _ _ leftBound rightBound =>
      have left := leftBound inside
      have right := rightBound inside
      rw [Tier.level_of_not_groups rfl, Expr.level_comparison]
      omega
  | not room _ induction =>
      have bound := induction room
      rw [Tier.level_of_not_groups rfl, Expr.level_not]
      omega
  | ofPrimary _ induction => exact induction inside
  | @group d ls e room _ induction =>
      have bound := induction room
      have most := Tier.primary.level_le_succ e
      rw [Tier.level_of_not_groups rfl] at bound
      omega
  | @call d callee parts room _ induction =>
      have bound := (Expr.add_deepest_le_iff room (parts.map Prod.snd)).mpr
        (List.forall_mem_map.mpr fun part member => induction part member room)
      rw [Tier.level_of_not_groups rfl, Expr.level]
      omega
  | @array d parts room _ induction =>
      have bound := (Expr.add_deepest_le_iff room (parts.map Prod.snd)).mpr
        (List.forall_mem_map.mpr fun part member => induction part member room)
      rw [Tier.level_of_not_groups rfl, Expr.level]
      omega
  | @object d entries room _ induction =>
      have each : ∀ entry ∈ entries.map (fun entry => (entry.1, entry.2.2)),
          d + 1 + entry.2.level ≤ limit := by
        intro entry member
        obtain ⟨source, inside, rfl⟩ := List.mem_map.mp member
        exact induction source inside room
      have bound := (Expr.add_deepestEntry_le_iff room _).mpr each
      rw [Tier.level_of_not_groups rfl, Expr.level]
      omega
  | _ => exact inside

/-! ## The canonical lexemes are derived -/

/-- What needs no group on the tightest tier needs none on any other one. -/
theorem derives_of_primary {tier : Tier} {d : Nat} {ls : List Lexeme} {e : Expr}
    (loose : tier ≠ .primary) (derivation : Derives limit .primary d ls e) :
    Derives limit tier d ls e := by
  cases tier with
  | logical => exact .ofComparison (.ofUnary (.ofPrimary derivation))
  | comparison => exact .ofUnary (.ofPrimary derivation)
  | unary => exact .ofPrimary derivation
  | primary => exact absurd rfl loose

/-- An expression may stand without a group on every tier that does not group it. -/
theorem derives_of_not_groups {tier : Tier} {d : Nat} {ls : List Lexeme} {e : Expr}
    (loose : tier ≠ .primary) (alone : tier.groups e = false)
    (derivation : Derives limit e.tier d ls e) : Derives limit tier d ls e := by
  cases e with
  | logical =>
      cases tier with
      | logical => exact derivation
      | _ => cases alone
  | comparison =>
      cases tier with
      | logical => exact .ofComparison derivation
      | comparison => exact derivation
      | _ => cases alone
  | not =>
      cases tier with
      | logical => exact .ofComparison (.ofUnary derivation)
      | comparison => exact .ofUnary derivation
      | unary => exact derivation
      | primary => exact absurd rfl loose
  | _ => exact derives_of_primary loose derivation

/-- An operand is derived on every tier, in a group where the tier sets one, if there is
room for its levels. -/
theorem derives_grouped {tier : Tier} {d : Nat} {e : Expr} (loose : tier ≠ .primary)
    (own : ∀ d, d + e.level ≤ limit → Derives limit e.tier d e.lexemes e)
    (room : d + tier.level e ≤ limit) :
    Derives limit tier d (Expr.grouped (tier.groups e) e.lexemes) e := by
  cases grouped : tier.groups e with
  | false =>
      rw [Tier.level_of_not_groups grouped] at room
      exact derives_of_not_groups loose grouped (own d room)
  | true =>
      rw [Tier.level_of_groups grouped] at room
      have inner : Derives limit .logical (d + 1) e.lexemes e :=
        derives_of_not_groups (by decide) rfl (own (d + 1) (by omega))
      have group : Derives limit .primary d (.openParen :: e.lexemes ++ [.closeParen]) e :=
        .group (by omega) inner
      exact derives_of_primary loose group

namespace Expr

/-- The lexemes of a call are those of its arguments, with commas between them. -/
theorem lexemes_call (callee : String) (arguments : List Expr) :
    (call callee arguments).lexemes =
      .call callee :: separated (arguments.map lexemes) ++ [.closeParen] := by
  rw [lexemes, lexemesEach_eq_map, separated]

/-- The lexemes of an array are those of its elements, with commas between them. -/
theorem lexemes_array (elements : List Expr) :
    (array elements).lexemes =
      .openBracket :: separated (elements.map lexemes) ++ [.closeBracket] := by
  rw [lexemes, lexemesEach_eq_map, separated]

/-- The lexemes of an object are its keys, colons and the lexemes of its values, with commas between
the entries. -/
theorem lexemes_object (entries : List (String × Expr)) :
    (object entries).lexemes =
      .openBrace :: separated (entries.map fun entry =>
        .literal entry.1 :: .colon :: entry.2.lexemes) ++ [.closeBrace] := by
  rw [lexemes, entryLexemes_eq_map, separated]

end Expr

/-- The canonical numeral of a number denotes it. -/
theorem denotes_ofInt64 (v : Int64) : Decimal.Denotes (Decimal.ofInt64 v) v :=
  (Decimal.toInt64?_eq_some_iff _ v).mp (Decimal.toInt64?_ofInt64 v)

/-- What is derived on its own tier is derived as a part of a list. -/
theorem derives_part {d : Nat} {e : Expr}
    (own : ∀ d, d + e.level ≤ limit → Derives limit e.tier d e.lexemes e)
    (room : d + e.level ≤ limit) : Derives limit .logical d e.lexemes e :=
  derives_of_not_groups (by decide) rfl (own d room)

/-- The parts of a list are derived one level below it. -/
theorem derives_parts {d : Nat} {list : List Expr}
    (own : ∀ e ∈ list, ∀ d, d + e.level ≤ limit → Derives limit e.tier d e.lexemes e)
    (room : d + (1 + Expr.deepest list) ≤ limit) :
    ∀ part ∈ list.map (fun e => (e.lexemes, e)),
      Derives limit .logical (d + 1) part.1 part.2 := by
  have each : ∀ e ∈ list, d + 1 + e.level ≤ limit :=
    (Expr.add_deepest_le_iff (by omega) list).mp (by omega)
  intro part member
  obtain ⟨e, inside, rfl⟩ := List.mem_map.mp member
  exact derives_part (own e inside) (each e inside)

/-- The canonical lexemes of an expression are derived within as many levels as it has. -/
theorem derives_own_lexemes (e : Expr) :
    ∀ d, d + e.level ≤ limit → Derives limit e.tier d e.lexemes e := by
  induction e using Expr.parts_induction with
  | text value => exact fun d room => .text
  | number value => exact fun d room => .number (denotes_ofInt64 value)
  | variableName name => exact fun d room => .variableName
  | member owner key =>
      intro d room
      cases key with
      | name text => exact .memberName
      | index value => exact .memberIndex (denotes_ofInt64 value)
  | call callee arguments induction =>
      intro d room
      rw [Expr.level] at room
      have derived := @Derives.call limit d callee _ (by omega) (derives_parts induction room)
      rw [List.map_map, List.map_map] at derived
      simpa [Expr.lexemes_call, Expr.tier, Function.comp_def] using derived
  | array elements induction =>
      intro d room
      rw [Expr.level] at room
      have derived := Derives.array (by omega) (derives_parts induction room)
      rw [List.map_map, List.map_map] at derived
      simpa [Expr.lexemes_array, Expr.tier, Function.comp_def] using derived
  | object entries induction =>
      intro d room
      rw [Expr.level] at room
      have each : ∀ entry ∈ entries, d + 1 + entry.2.level ≤ limit :=
        (Expr.add_deepestEntry_le_iff (by omega) entries).mp (by omega)
      have parts : ∀ part ∈ entries.map (fun entry => (entry.1, entry.2.lexemes, entry.2)),
          Derives limit .logical (d + 1) part.2.1 part.2.2 := by
        intro part member
        obtain ⟨entry, inside, rfl⟩ := List.mem_map.mp member
        exact derives_part (induction entry inside) (each entry inside)
      have derived := Derives.object (by omega) parts
      rw [List.map_map, List.map_map] at derived
      simpa [Expr.lexemes_object, Expr.tier, entryPart, Function.comp_def] using derived
  | not operand induction =>
      intro d room
      rw [Expr.level_not] at room
      exact .not (by omega) (derives_grouped (by decide) induction (by omega))
  | comparison left operator right leftOwn rightOwn =>
      intro d room
      rw [Expr.level_comparison] at room
      exact .comparison (derives_grouped (by decide) leftOwn (by omega))
        (derives_grouped (by decide) rightOwn (by omega))
  | logical left operator right leftOwn rightOwn =>
      intro d room
      rw [Expr.level_logical] at room
      exact .logical (derives_grouped (by decide) leftOwn (by omega)) (by omega)
        (derives_grouped (by decide) rightOwn (by omega))

/-- The level of an expression decides whether its canonical lexemes are derived. -/
theorem derives_lexemes_iff (limit : Nat) (e : Expr) :
    Derives limit .logical 0 e.lexemes e ↔ e.level ≤ limit := by
  constructor
  · intro derivation
    have bound := level_le_of_derives derivation (Nat.zero_le limit)
    rwa [Tier.level_of_not_groups rfl, Nat.zero_add] at bound
  · intro room
    exact derives_of_not_groups (by decide) rfl (derives_own_lexemes e 0 (by omega))

/-- The level of an expression is room enough for its canonical lexemes, however high it is. -/
theorem derives_lexemes (e : Expr) : Derives e.level .logical 0 e.lexemes e :=
  (derives_lexemes_iff e.level e).mpr (Nat.le_refl _)

end EdgeExpression
