import EdgeExpression.Proofs.RoundTrip
import Mathlib.Order.MinMax

/-!
# Heights of expressions

A text may have so many levels of nesting and no more. A level is not a step down in the
expression, though. A group opens a level and leaves no trace; a comparison takes a step down and
opens no level; and a connective opens one on its right side only. So the limit does not bound the
height of an expression by itself, but at most three steps go down with each level: into a list,
into a connective and into a comparison. An expression that takes all three on every level is as
high as any with its level.

Whatever works through an expression by recursion over its parts nests no more calls than the
expression is high. That is so for printing and for comparing expressions, and hence there is one
number of nested calls with which both come to an end on everything that was ever parsed.
-/
namespace EdgeExpression
namespace Expr

/-! ## Ways down -/

/-- The expressions that an expression is directly composed of. -/
def children : Expr → List Expr
  | .call _ arguments => arguments
  | .array elements => elements
  | .object entries => entries.map Prod.snd
  | .not operand => [operand]
  | .comparison left _ right => [left, right]
  | .logical left _ right => [left, right]
  | _ => []

/-- A property of all expressions may be assumed of the children when it is proved of an
expression. -/
theorem children_induction {motive : Expr → Prop}
    (step : ∀ e, (∀ child ∈ e.children, motive child) → motive e) (e : Expr) : motive e := by
  induction e using parts_induction with
  | text | number | variableName | member => exact step _ (by simp [children])
  | call callee arguments induction => exact step (.call callee arguments) induction
  | array elements induction => exact step (.array elements) induction
  | object entries induction =>
      exact step (.object entries) (List.forall_mem_map.mpr induction)
  | not operand induction => exact step (.not operand) (List.forall_mem_singleton.mpr induction)
  | comparison left operator right leftHolds rightHolds =>
      exact step (.comparison left operator right) (by simp [children, leftHolds, rightHolds])
  | logical left operator right leftHolds rightHolds =>
      exact step (.logical left operator right) (by simp [children, leftHolds, rightHolds])

/-- A way from an expression down to one without children, child by child. -/
inductive WayDown : Expr → List Expr → Prop where
  | arrived {e : Expr} : e.children = [] → WayDown e [e]
  | down {e child : Expr} {way : List Expr} :
      child ∈ e.children → WayDown child way → WayDown e (e :: way)

mutual

/-- The number of expressions on the longest way down. -/
def height : Expr → Nat
  | .call _ arguments => 1 + tallest arguments
  | .array elements => 1 + tallest elements
  | .object entries => 1 + tallestEntry entries
  | .not operand => 1 + operand.height
  | .comparison left _ right => 1 + max left.height right.height
  | .logical left _ right => 1 + max left.height right.height
  | _ => 1
termination_by structural e => e

/-- The greatest height in a list, and 0 in an empty one. -/
def tallest : List Expr → Nat
  | [] => 0
  | e :: rest => max e.height (tallest rest)
termination_by structural list => list

/-- The greatest height among the values of entries, and 0 if there are none. -/
def tallestEntry : List (String × Expr) → Nat
  | [] => 0
  | (_, e) :: rest => max e.height (tallestEntry rest)
termination_by structural list => list

end

/-- The greatest height among the values of entries is that of the list of the values. -/
theorem tallestEntry_eq (entries : List (String × Expr)) :
    tallestEntry entries = tallest (entries.map Prod.snd) := by
  induction entries with
  | nil => rfl
  | cons entry rest induction => rw [tallestEntry, induction, List.map_cons, tallest]

/-- An expression is one step higher than its tallest child. -/
theorem height_eq (e : Expr) : e.height = 1 + tallest e.children := by
  cases e with
  | object entries => rw [height, tallestEntry_eq, children]
  | comparison | logical => simp [height, children, tallest]
  | _ => simp [height, children, tallest]

/-- The greatest height in a list is bounded if each height is. -/
theorem tallest_le_iff {list : List Expr} {n : Nat} :
    tallest list ≤ n ↔ ∀ e ∈ list, e.height ≤ n := by
  induction list with
  | nil => simp [tallest]
  | cons e rest induction =>
      rw [tallest, List.forall_mem_cons, ← induction]
      omega

/-- In a list with a member some member is as high as the highest. -/
theorem exists_tallest {list : List Expr} (nonempty : list ≠ []) :
    ∃ e ∈ list, e.height = tallest list := by
  induction list with
  | nil => exact absurd rfl nonempty
  | cons e rest induction =>
      rw [tallest]
      rcases Nat.le_total (tallest rest) e.height with least | most
      · exact ⟨e, List.mem_cons_self, (Nat.max_eq_left least).symm⟩
      · cases rest with
        | nil => exact ⟨e, List.mem_cons_self, by simp [tallest]⟩
        | cons next rest =>
            obtain ⟨other, member, same⟩ := induction (by simp)
            exact ⟨other, List.mem_cons_of_mem e member, by rw [same, Nat.max_eq_right most]⟩

/-- A child is lower than its parent. -/
theorem height_lt_of_mem_children {e child : Expr} (member : child ∈ e.children) :
    child.height < e.height := by
  have most := tallest_le_iff.mp (Nat.le_refl (tallest e.children)) child member
  rw [height_eq e]
  omega

/-- No way down is longer than the height says. -/
theorem WayDown.length_le_height {e : Expr} {way : List Expr} (down : e.WayDown way) :
    way.length ≤ e.height := by
  induction down with
  | arrived => simp [height_eq]
  | down member _ induction =>
      exact Nat.lt_of_le_of_lt induction (height_lt_of_mem_children member)

/-- Some way down is as long as the height says: it always goes on to a tallest child. -/
theorem exists_wayDown (e : Expr) : ∃ way, e.WayDown way ∧ way.length = e.height := by
  induction e using children_induction with
  | step e induction =>
      by_cases arrived : e.children = []
      · exact ⟨[e], .arrived arrived, by simp [height_eq, arrived, tallest]⟩
      · obtain ⟨child, member, tall⟩ := exists_tallest arrived
        obtain ⟨way, down, length⟩ := induction child member
        refine ⟨e :: way, .down member down, ?_⟩
        rw [List.length_cons, length, tall, height_eq, Nat.add_comm]

/-! ## Nested calls -/

/-- What a recursive consumer makes of an expression: it combines the expression itself with what
it makes of the children. It gives up where more calls would be nested than it is allowed. -/
def consume {α : Type} (combine : Expr → List α → α) : Nat → Expr → Option α
  | 0, _ => none
  | calls + 1, e => (e.children.mapM (consume combine calls)).map (combine e)

/-- A consumer comes to an end exactly if it may nest as many calls as the expression is high.
Proof: by induction on the calls that are allowed. -/
theorem consume_eq {α : Type} {f : Expr → α} {combine : Expr → List α → α}
    (recursion : ∀ e, f e = combine e (e.children.map f)) (calls : Nat) (e : Expr) :
    consume combine calls e = if e.height ≤ calls then some (f e) else none := by
  induction calls generalizing e with
  | zero => simp [consume, height_eq]
  | succ calls induction =>
      have each (list : List Expr) : list.mapM (consume combine calls) =
          if tallest list ≤ calls then some (list.map f) else none := by
        induction list with
        | nil => simp [tallest]
        | cons e rest others =>
            rw [List.mapM_cons, induction, others, tallest]
            by_cases first : e.height ≤ calls <;>
              by_cases behind : tallest rest ≤ calls <;> simp [first, behind]
      rw [consume, each, height_eq, Nat.add_comm 1]
      by_cases enough : tallest e.children ≤ calls
      · simp [enough, ← recursion]
      · simp [enough]

/-- The lexemes of an expression, given those of its children. -/
def joinLexemes : Expr → List (List Lexeme) → List Lexeme
  | .text value, _ => [.literal value]
  | .number value, _ => [.number (Decimal.ofInt64 value)]
  | .variable name, _ => [.variable name]
  | .member owner key, _ => [.member owner, key.lexeme, .closeBrace, .closeParen]
  | .call callee _, parts => .call callee :: separated parts ++ [.closeParen]
  | .array _, parts => .openBracket :: separated parts ++ [.closeBracket]
  | .object entries, parts =>
      .openBrace :: separated (List.zipWith (fun entry ls => .literal entry.1 :: .colon :: ls)
        entries parts) ++ [.closeBrace]
  | .not operand, [ls] => .not :: grouped operand.isInfix ls
  | .comparison left operator right, [ls, rs] =>
      grouped left.isInfix ls ++ .comparison operator :: grouped right.isInfix rs
  | .logical left operator _, [ls, rs] =>
      grouped left.isLogical ls ++ .connective operator :: rs
  | _, _ => []

/-- The lexemes of an expression are made of those of its children. -/
theorem lexemes_eq_join (e : Expr) : e.lexemes = joinLexemes e (e.children.map lexemes) := by
  cases e with
  | call callee arguments => exact lexemes_call callee arguments
  | array elements => exact lexemes_array elements
  | object entries =>
      rw [lexemes_object, joinLexemes, children, List.map_map, List.zipWith_map_right,
        List.zipWith_self]
      rfl
  | _ => rfl

/-- Whether a list passes tests, one after the other. -/
def passAll {α : Type} : List (α → Bool) → List α → Bool
  | [], [] => true
  | test :: tests, x :: rest => test x && passAll tests rest
  | _, _ => false

/-- Whether another expression is the same, given tests for the children. -/
def joinTests : Expr → List (Expr → Bool) → Expr → Bool
  | .text value, _, .text other => value == other
  | .number value, _, .number other => value == other
  | .variable name, _, .variable other => name == other
  | .member owner key, _, .member otherOwner otherKey => owner == otherOwner && key == otherKey
  | .call callee _, tests, .call otherCallee others => callee == otherCallee && passAll tests others
  | .array _, tests, .array others => passAll tests others
  | .object entries, tests, .object others =>
      entries.map Prod.fst == others.map Prod.fst && passAll tests (others.map Prod.snd)
  | .not _, [test], .not other => test other
  | .comparison _ operator _, [left, right], .comparison otherLeft otherOperator otherRight =>
      operator == otherOperator && left otherLeft && right otherRight
  | .logical _ operator _, [left, right], .logical otherLeft otherOperator otherRight =>
      operator == otherOperator && left otherLeft && right otherRight
  | _, _, _ => false

/-- A list is the same as another one if its members, as tests, are passed by the others. -/
theorem sameAll_eq_passAll (list others : List Expr) :
    sameAll list others = passAll (list.map same) others := by
  induction list generalizing others with
  | nil => cases others <;> rfl
  | cons e rest induction =>
      cases others with
      | nil => rfl
      | cons other others => rw [sameAll, induction, List.map_cons, passAll]

/-- Entries are the same as others if the keys are, and the values, as tests, are passed by the
others. -/
theorem sameEntries_eq_passAll (entries others : List (String × Expr)) :
    sameEntries entries others = (entries.map Prod.fst == others.map Prod.fst &&
      passAll ((entries.map Prod.snd).map same) (others.map Prod.snd)) := by
  induction entries generalizing others with
  | nil => cases others <;> rfl
  | cons entry rest induction =>
      cases others with
      | nil => simp [sameEntries]
      | cons other others =>
          obtain ⟨key, e⟩ := entry
          obtain ⟨otherKey, other⟩ := other
          simp only [sameEntries, induction, List.map_cons, passAll]
          grind

/-- The test for an expression is made of the tests for its children. -/
theorem same_eq_join (e : Expr) : e.same = joinTests e (e.children.map same) := by
  funext other
  cases e with
  | call callee arguments =>
      cases other with
      | call otherCallee others => rw [same, sameAll_eq_passAll]; rfl
      | _ => rfl
  | array elements =>
      cases other with
      | array others => rw [same, sameAll_eq_passAll]; rfl
      | _ => rfl
  | object entries =>
      cases other with
      | object others => rw [same, sameEntries_eq_passAll]; rfl
      | _ => rfl
  | _ => cases other <;> rfl

end Expr

/-! ## Heights and levels -/

/-- The greatest height of an expression that has so many levels of nesting on a tier. -/
def Tier.tallest : Tier → Nat → Nat
  | .logical, levels => 3 * levels + 2
  | .comparison, levels => 1 + max 1 (3 * levels)
  | .unary, levels | .primary, levels => max 1 (3 * levels)

namespace Expr

/-- The height that an expression has on its own tier it has on all others as well, since a group
there opens another level. -/
theorem height_le_of_own {e : Expr} (own : e.height ≤ e.tier.tallest e.level) (tier : Tier) :
    e.height ≤ tier.tallest (tier.level e) := by
  cases e <;> cases tier <;>
    simp only [Tier.tallest, Expr.tier, Tier.level, Tier.groups, isInfix, isLogical, if_true,
      Bool.false_eq_true, if_false] at own ⊢ <;> omega

/-- The parts of a list are no higher than their levels allow. -/
theorem tallest_le_of_levels {list : List Expr}
    (bound : ∀ e ∈ list, e.height ≤ Tier.logical.tallest (Tier.logical.level e)) :
    tallest list ≤ 3 * deepest list + 2 := by
  refine tallest_le_iff.mpr fun e member => ?_
  have inside := (add_deepest_le_iff (Nat.zero_le (deepest list)) list).mp (by omega) e member
  have height := bound e member
  rw [Tier.level_of_not_groups rfl, Tier.tallest] at height
  omega

/-- The values of entries are no higher than their levels allow. -/
theorem tallestEntry_le_of_levels {entries : List (String × Expr)}
    (bound : ∀ entry ∈ entries,
      entry.2.height ≤ Tier.logical.tallest (Tier.logical.level entry.2)) :
    tallestEntry entries ≤ 3 * deepestEntry entries + 2 := by
  rw [tallestEntry_eq, tallest_le_iff, List.forall_mem_map]
  intro entry member
  have inside :=
    (add_deepestEntry_le_iff (Nat.zero_le (deepestEntry entries)) entries).mp (by omega)
      entry member
  have height := bound entry member
  rw [Tier.level_of_not_groups rfl, Tier.tallest] at height
  omega

/-- An expression is at most three steps high for each of its levels, and two more. Proof: by
induction on the expression, for all tiers at once. The parts of a list lie one level below the
list; a comparison has operands that are no comparisons without a group; and the right side of a
connective lies one level below it. -/
theorem height_le_tallest (e : Expr) (tier : Tier) : e.height ≤ tier.tallest (tier.level e) := by
  revert tier
  induction e using parts_induction with
  | text | number | variableName | member =>
      exact height_le_of_own (Nat.le_max_left 1 _)
  | call callee arguments induction =>
      have bound := tallest_le_of_levels fun e member => induction e member .logical
      refine height_le_of_own ?_
      simp only [height, level, Tier.tallest, tier]
      omega
  | array elements induction =>
      have bound := tallest_le_of_levels fun e member => induction e member .logical
      refine height_le_of_own ?_
      simp only [height, level, Tier.tallest, tier]
      omega
  | object entries induction =>
      have bound := tallestEntry_le_of_levels fun entry member => induction entry member .logical
      refine height_le_of_own ?_
      simp only [height, level, Tier.tallest, tier]
      omega
  | not operand induction =>
      have bound := induction .unary
      refine height_le_of_own ?_
      rw [height, level_not]
      simp only [Tier.tallest, tier] at bound ⊢
      omega
  | comparison left operator right leftBound rightBound =>
      have leftHeight := leftBound .unary
      have rightHeight := rightBound .unary
      refine height_le_of_own ?_
      rw [height, level_comparison]
      simp only [Tier.tallest, tier] at leftHeight rightHeight ⊢
      omega
  | logical left operator right leftBound rightBound =>
      have leftHeight := leftBound .comparison
      have rightHeight := rightBound .logical
      refine height_le_of_own ?_
      rw [height, level_logical]
      simp only [Tier.tallest, tier] at leftHeight rightHeight ⊢
      omega

/-- The height of an expression is bounded by its levels of nesting. -/
theorem height_le_of_level (e : Expr) : e.height ≤ 3 * e.level + 2 := by
  have bound := height_le_tallest e .logical
  rwa [Tier.level_of_not_groups rfl, Tier.tallest] at bound

/-! ## The greatest height -/

/-- Expressions that go down all three steps on each of their levels. -/
def tower : Nat → Expr
  | 0 => .comparison (.number 1) .equal (.number 1)
  | levels + 1 =>
      .logical (.comparison (.array [tower levels]) .equal (.number 1)) .and (.number 1)

/-- A tower is as high as its levels of nesting allow. -/
theorem height_tower (levels : Nat) : (tower levels).height = 3 * levels + 2 := by
  induction levels with
  | zero => rfl
  | succ levels induction =>
      simp only [tower, height, tallest, induction]
      omega

/-- A tower opens all the levels of nesting that it has. -/
theorem level_tower (levels : Nat) : (tower levels).level = levels := by
  induction levels with
  | zero => rfl
  | succ levels induction =>
      simp only [tower, level, deepest, induction, isInfix, isLogical, Bool.false_eq_true, if_false]
      omega

/-- An expression that has no name and no text of its own can be presented. -/
theorem presentable_of_nil {e : Expr} (names : e.ownNames = []) (texts : e.ownTexts = []) :
    e.Presentable := by
  simp [Presentable, names, texts]

/-- There are no names and no texts in a tower, only numbers. -/
theorem legible_tower (levels : Nat) : ∀ lexeme ∈ (tower levels).lexemes, lexeme.Legible := by
  rw [forall_legible_iff]
  induction levels with
  | zero =>
      simp only [tower, parts, List.singleton_append, List.forall_mem_cons, List.not_mem_nil,
        false_implies, implies_true, and_true]
      exact ⟨presentable_of_nil rfl rfl, presentable_of_nil rfl rfl, presentable_of_nil rfl rfl⟩
  | succ levels induction =>
      simp only [tower, parts, partsOfEach, List.append_nil, List.forall_mem_cons,
        List.forall_mem_append, List.not_mem_nil, false_implies, implies_true, and_true]
      exact ⟨presentable_of_nil rfl rfl,
        ⟨presentable_of_nil rfl rfl, ⟨presentable_of_nil rfl rfl, induction⟩,
          presentable_of_nil rfl rfl⟩,
        presentable_of_nil rfl rfl⟩

/-- The limit on nesting bounds the height of everything that is parsed, and with it the length
of every way down and the calls that a recursive consumer nests; printing and comparing
expressions are such consumers. The bound is attained. -/
theorem height_of_parsed :
    (∀ source e, parse source = .ok e →
      e.height ≤ 3 * maxDepth + 2 ∧
      (∀ way, e.WayDown way → way.length ≤ 3 * maxDepth + 2) ∧
      (∀ (α : Type) (f : Expr → α) (combine : Expr → List α → α),
        (∀ e, f e = combine e (e.children.map f)) →
          consume combine (3 * maxDepth + 2) e = some (f e)) ∧
      consume joinLexemes (3 * maxDepth + 2) e = some e.lexemes ∧
      consume joinTests (3 * maxDepth + 2) e = some e.same) ∧
    ∃ source e, parse source = .ok e ∧ e.height = 3 * maxDepth + 2 ∧
      ∃ way, e.WayDown way ∧ way.length = 3 * maxDepth + 2 := by
  constructor
  · intro source e parsed
    obtain ⟨_, shallow⟩ := (exists_parse_iff e).mp ⟨source, parsed⟩
    have bound : e.height ≤ 3 * maxDepth + 2 := by
      have low := height_le_of_level e
      omega
    have ends {α : Type} {f : Expr → α} {combine : Expr → List α → α}
        (recursion : ∀ e, f e = combine e (e.children.map f)) :
        consume combine (3 * maxDepth + 2) e = some (f e) := by
      rw [consume_eq recursion, if_pos bound]
    exact ⟨bound, fun way down => Nat.le_trans down.length_le_height bound, fun _ _ _ => ends,
      ends lexemes_eq_join, ends same_eq_join⟩
  · have parsed := parse_render (legible_tower maxDepth) (Nat.le_of_eq (level_tower maxDepth))
    obtain ⟨way, down, length⟩ := exists_wayDown (tower maxDepth)
    rw [height_tower] at length
    exact ⟨(tower maxDepth).render, tower maxDepth, parsed, height_tower maxDepth,
      way, down, length⟩

/-- The groups are gone, and the three comparisons are on one way down. -/
theorem height_of_parsed_comparisons :
    parse "((1 == 2) == 3) == 4" = .ok
        (.comparison (.comparison (.comparison (.number 1) .equal (.number 2)) .equal (.number 3))
          .equal (.number 4)) ∧
      consume joinLexemes 3 (.comparison (.comparison (.comparison (.number 1) .equal (.number 2))
        .equal (.number 3)) .equal (.number 4)) = none ∧
      (comparison (.comparison (.comparison (.number 1) .equal (.number 2)) .equal (.number 3))
          .equal (.number 4)).height ≤ 3 * maxDepth + 2 := by
  have parsed : parse "((1 == 2) == 3) == 4" = .ok
      (.comparison (.comparison (.comparison (.number 1) .equal (.number 2)) .equal (.number 3))
        .equal (.number 4)) := by decide +kernel
  exact ⟨parsed, by decide +kernel, (height_of_parsed.1 _ _ parsed).1⟩

/-- Three steps down for each of 128 levels, and two more. -/
example : 3 * maxDepth + 2 = 386 := rfl

end Expr
end EdgeExpression
