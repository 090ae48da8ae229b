import EdgeExpression.Proofs.Groups

/-!
# Printing and parsing

Which expressions have a text is decided by three things: the names in them, the texts
in them, and their level of nesting. If a name cannot be read, if three quotes in a text
are followed by something else, or if the level exceeds the limit, no text stands for
the expression. In all other cases its canonical text does.

So the canonical text of everything that was ever read is read as the same expression.
-/
namespace EdgeExpression

namespace Expr

/-! ## Names and texts -/

mutual

/-- An expression and everything that it is composed of. -/
def parts : Expr → List Expr
  | .call callee arguments => .call callee arguments :: partsOfEach arguments
  | .array elements => .array elements :: partsOfEach elements
  | .object entries => .object entries :: partsOfEntries entries
  | .not operand => .not operand :: operand.parts
  | .comparison left operator right =>
      .comparison left operator right :: (left.parts ++ right.parts)
  | .logical left operator right => .logical left operator right :: (left.parts ++ right.parts)
  | single => [single]
termination_by structural e => e

/-- The expressions of a list and everything that they are composed of. -/
def partsOfEach : List Expr → List Expr
  | [] => []
  | e :: rest => e.parts ++ partsOfEach rest
termination_by structural list => list

/-- The values of entries and everything that they are composed of. -/
def partsOfEntries : List (String × Expr) → List Expr
  | [] => []
  | (_, e) :: rest => e.parts ++ partsOfEntries rest
termination_by structural list => list

end

/-- The parts of a list are those of each of its members. -/
theorem partsOfEach_eq_flatMap (list : List Expr) : partsOfEach list = list.flatMap parts := by
  induction list with
  | nil => rfl
  | cons e rest induction => rw [partsOfEach, induction, List.flatMap_cons]

/-- The parts of entries are those of each of their values. -/
theorem partsOfEntries_eq_flatMap (entries : List (String × Expr)) :
    partsOfEntries entries = entries.flatMap fun entry => entry.2.parts := by
  induction entries with
  | nil => rfl
  | cons entry rest induction => rw [partsOfEntries, induction, List.flatMap_cons]

/-- The name that an expression has itself, apart from what it is composed of. -/
def ownNames : Expr → List String
  | .variable name => [name]
  | .member owner _ => [owner]
  | .call callee _ => [callee]
  | _ => []

/-- The texts that an expression shows in quotes itself: a value, or keys. -/
def ownTexts : Expr → List String
  | .text value => [value]
  | .member _ (.name key) => [key]
  | .object entries => entries.map Prod.fst
  | _ => []

/-- All names in an expression: of its variables, of the owners of its members and of
the functions that it calls. -/
def names (e : Expr) : List String := e.parts.flatMap ownNames

/-- All texts in an expression: its text values, the names of its keys in members, and
the keys of its objects. -/
def texts (e : Expr) : List String := e.parts.flatMap ownTexts

/-- The names and texts that an expression has itself can be written down. -/
def Presentable (e : Expr) : Prop :=
  (∀ name ∈ e.ownNames, IsName name) ∧ ∀ text ∈ e.ownTexts, IsWritable text.toList

/-- All parts can be presented if all names are names and all texts can be written. -/
theorem forall_presentable_iff (e : Expr) :
    (∀ part ∈ e.parts, part.Presentable) ↔
      (∀ name ∈ e.names, IsName name) ∧ ∀ text ∈ e.texts, IsWritable text.toList := by
  simp only [names, texts, Presentable, List.forall_mem_flatMap]
  exact forall₂_and

end Expr

/-- A group's parentheses are always legible. -/
theorem forall_mem_grouped {group : Bool} {ls : List Lexeme} :
    (∀ lexeme ∈ Expr.grouped group ls, lexeme.Legible) ↔ ∀ lexeme ∈ ls, lexeme.Legible := by
  cases group with
  | false => rfl
  | true =>
      rw [Expr.grouped, if_pos rfl, List.cons_append, List.forall_mem_cons,
        List.forall_mem_append, List.forall_mem_singleton]
      exact ⟨fun all => all.2.1, fun inside => ⟨trivial, inside, trivial⟩⟩

/-- A list is legible if what stands around it and all its parts are. -/
theorem forall_mem_listing {opening closing : Lexeme} {parts : List (List Lexeme)}
    (closes : closing.Legible) :
    (∀ lexeme ∈ opening :: separated parts ++ [closing], lexeme.Legible) ↔
      opening.Legible ∧ ∀ part ∈ parts, ∀ lexeme ∈ part, lexeme.Legible := by
  rw [List.cons_append, List.forall_mem_cons, List.forall_mem_append, List.forall_mem_singleton,
    forall_mem_separated (by trivial)]
  simp [closes]

/-- The canonical lexemes of an expression are legible exactly if all names and texts in
it can be written down. -/
theorem forall_legible_iff (e : Expr) :
    (∀ lexeme ∈ e.lexemes, lexeme.Legible) ↔ ∀ part ∈ e.parts, part.Presentable := by
  induction e using Expr.parts_induction with
  | text value =>
      simp [Expr.lexemes, Expr.parts, Expr.Presentable, Expr.ownNames, Expr.ownTexts,
        Lexeme.Legible]
  | number value =>
      have numeral : IsNumeral (Decimal.ofInt64 value).toList := isNumeral_ofInt value.toInt
      simp [Expr.lexemes, Expr.parts, Expr.Presentable, Expr.ownNames, Expr.ownTexts,
        Lexeme.Legible, numeral]
  | variableName name =>
      simp [Expr.lexemes, Expr.parts, Expr.Presentable, Expr.ownNames, Expr.ownTexts,
        Lexeme.Legible]
  | member owner key =>
      cases key with
      | name text =>
          simp [Expr.lexemes, Expr.parts, Expr.Presentable, Expr.ownNames, Expr.ownTexts,
            Lexeme.Legible, Key.lexeme]
      | index value =>
          have numeral : IsNumeral (Decimal.ofInt64 value).toList := isNumeral_ofInt value.toInt
          simp [Expr.lexemes, Expr.parts, Expr.Presentable, Expr.ownNames, Expr.ownTexts,
            Lexeme.Legible, Key.lexeme, numeral]
  | call callee arguments induction =>
      have closes : Lexeme.closeParen.Legible := trivial
      rw [Expr.lexemes_call, forall_mem_listing closes, List.forall_mem_map, Expr.parts,
        Expr.partsOfEach_eq_flatMap, List.forall_mem_cons, List.forall_mem_flatMap,
        forall₂_congr induction]
      simp [Expr.Presentable, Expr.ownNames, Expr.ownTexts, Lexeme.Legible]
  | array elements induction =>
      have closes : Lexeme.closeBracket.Legible := trivial
      rw [Expr.lexemes_array, forall_mem_listing closes, List.forall_mem_map, Expr.parts,
        Expr.partsOfEach_eq_flatMap, List.forall_mem_cons, List.forall_mem_flatMap,
        forall₂_congr induction]
      simp [Expr.Presentable, Expr.ownNames, Expr.ownTexts, Lexeme.Legible]
  | object entries induction =>
      have closes : Lexeme.closeBrace.Legible := trivial
      have each : ∀ entry ∈ entries,
          (∀ lexeme ∈ .literal entry.1 :: .colon :: entry.2.lexemes, lexeme.Legible) ↔
            IsWritable entry.1.toList ∧ ∀ part ∈ entry.2.parts, part.Presentable := by
        intro entry member
        rw [List.forall_mem_cons, List.forall_mem_cons, induction entry member]
        simp [Lexeme.Legible]
      rw [Expr.lexemes_object, forall_mem_listing closes, List.forall_mem_map, Expr.parts,
        Expr.partsOfEntries_eq_flatMap, List.forall_mem_cons, List.forall_mem_flatMap,
        forall₂_congr each, forall₂_and]
      simp [Expr.Presentable, Expr.ownNames, Expr.ownTexts, Lexeme.Legible]
  | not operand induction =>
      rw [Expr.lexemes, Expr.parts, List.forall_mem_cons, List.forall_mem_cons,
        forall_mem_grouped, induction]
      simp [Expr.Presentable, Expr.ownNames, Expr.ownTexts, Lexeme.Legible]
  | comparison left operator right leftIff rightIff =>
      rw [Expr.lexemes, Expr.parts, List.forall_mem_cons, List.forall_mem_append,
        List.forall_mem_append, List.forall_mem_cons, forall_mem_grouped, forall_mem_grouped,
        leftIff, rightIff]
      simp [Expr.Presentable, Expr.ownNames, Expr.ownTexts, Lexeme.Legible]
  | logical left operator right leftIff rightIff =>
      rw [Expr.lexemes, Expr.parts, List.forall_mem_cons, List.forall_mem_append,
        List.forall_mem_append, List.forall_mem_cons, forall_mem_grouped, leftIff, rightIff]
      simp [Expr.Presentable, Expr.ownNames, Expr.ownTexts, Lexeme.Legible]

/-! ## Expressions with a text -/

/-- An expression whose canonical lexemes are legible and do not nest too deep is read
from its canonical text. -/
theorem parse_render {e : Expr} (legible : ∀ lexeme ∈ e.lexemes, lexeme.Legible)
    (shallow : e.level ≤ maxDepth) : Expr.parse e.render = .ok e :=
  (parse_eq_ok_iff _ e).mpr
    ⟨e.lexemes, consistsOf_render legible, (derives_lexemes_iff maxDepth e).mpr shallow⟩

/-- The expressions that have a text at all. The lexemes of the canonical text are among
those of any text, up to the spelling of numerals, and its levels of nesting are no more
than those of any text. -/
theorem exists_parse_iff (e : Expr) :
    (∃ source, Expr.parse source = .ok e) ↔
      (∀ lexeme ∈ e.lexemes, lexeme.Legible) ∧ e.level ≤ maxDepth := by
  constructor
  · rintro ⟨source, parsed⟩
    obtain ⟨ls, consists, derivation⟩ := (parse_eq_ok_iff source e).mp parsed
    have bound := level_le_of_derives derivation (Nat.zero_le maxDepth)
    rw [Tier.level_of_not_groups rfl, Nat.zero_add] at bound
    exact ⟨legible_lexemes_of_derives derivation consists.legible, bound⟩
  · rintro ⟨legible, shallow⟩
    exact ⟨e.render, parse_render legible shallow⟩

/-- The canonical text of whatever was read is read as the same expression. It consists
of the canonical lexemes, none of which is read as another one, and its nesting stays
within the limit. -/
theorem ofString_render (source : String) (e : Expr) (parsed : Expr.ofString source = .ok e) :
    Expr.ofString e.render = .ok e ∧ ConsistsOf e.render e.lexemes ∧ e.level ≤ maxDepth := by
  rw [ofString_eq_ok_iff] at parsed ⊢
  obtain ⟨legible, shallow⟩ := (exists_parse_iff e).mp ⟨source, parsed⟩
  exact ⟨parse_render legible shallow, consistsOf_render legible, shallow⟩

/-- Groups, blanks, leading zeros and needless quotes are gone from the canonical text. -/
theorem ofString_render_of_comparison :
    Expr.ofString "(('''it's''')) ==\n007" =
        .ok (.comparison (.text "it's") .equal (.number 7)) ∧
      Expr.ofString "'''it's''' == 7" = .ok (.comparison (.text "it's") .equal (.number 7)) := by
  have parsed : Expr.ofString "(('''it's''')) ==\n007" =
      .ok (.comparison (.text "it's") .equal (.number 7)) := by decide +kernel
  obtain ⟨again, _, _⟩ := ofString_render _ _ parsed
  exact ⟨parsed, again⟩

/-- The canonical text of an expression is read as that expression if and only if all
names in it are names, no text in it goes on behind three quotes, and its level is
within the limit. -/
theorem ofString_render_iff (e : Expr) :
    Expr.ofString e.render = .ok e ↔
      (∀ name ∈ e.names, IsName name) ∧ (∀ text ∈ e.texts, IsWritable text.toList) ∧
        e.level ≤ maxDepth := by
  have presentable := (forall_legible_iff e).trans (Expr.forall_presentable_iff e)
  rw [ofString_eq_ok_iff, ← and_assoc, ← presentable]
  constructor
  · intro parsed
    exact (exists_parse_iff e).mp ⟨e.render, parsed⟩
  · rintro ⟨legible, shallow⟩
    exact parse_render legible shallow

/-- Three quotes at the very end of a text do not keep it from being read. -/
example : Expr.ofString (Expr.text "a'''").render = .ok (.text "a'''") := by decide +kernel

end EdgeExpression
