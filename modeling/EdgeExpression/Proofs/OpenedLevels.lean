import EdgeExpression.Proofs.Grammar

/-!
# The levels that lexemes open

The grammar without a limit, in which every lexeme that opens a level of nesting says which one:

    logical(d)    ::= comparison(d) | comparison(d) CONNECTIVE(d + 1) logical(d + 1)
    unary(d)      ::= "!"(d + 1) unary(d + 1) | primary(d)
    primary(d)    ::= "("(d + 1) logical(d + 1) ")" | CALL(d + 1) list(d + 1) ")" | ...

The level is that of the surroundings plus one, whatever was opened and closed there before.
A connective opens the level that its right side lies in, while its left side lies in the
surroundings; so the connectives of a chain open one level after the other.

The grammar with a limit derives the same lexemes as long as no level exceeds the limit.
-/
namespace EdgeExpression

/-- A lexeme with the level of nesting that it opens, if it opens one. -/
abbrev LeveledLexeme := Lexeme × Option Nat

/-- No level that is opened exceeds a limit. -/
def LevelsWithin (limit : Nat) (entries : List LeveledLexeme) : Prop :=
  ∀ entry ∈ entries, ∀ level ∈ entry.2, level ≤ limit

instance (limit : Nat) (entries : List LeveledLexeme) : Decidable (LevelsWithin limit entries) :=
  inferInstanceAs (Decidable (∀ entry ∈ entries, ∀ level ∈ entry.2, level ≤ limit))

/-- Parts of a list with commas in between, which open no level. -/
def separatedLeveled (parts : List (List LeveledLexeme)) : List LeveledLexeme :=
  [(Lexeme.comma, none)].intercalate parts

/-- There is a comma behind every part but the last one. -/
theorem separatedLeveled_concat (parts : List (List LeveledLexeme)) (last : List LeveledLexeme) :
    separatedLeveled (parts ++ [last]) = parts.flatMap (· ++ [(.comma, none)]) ++ last :=
  intercalate_concat _ parts last

/-- An entry of an object, whose key and colon open no level. -/
def leveledEntryPart (entry : String × List LeveledLexeme × Expr) : List LeveledLexeme :=
  (.literal entry.1, none) :: (.colon, none) :: entry.2.1

/-- Lexemes, with the levels that they open, stand for an expression on a tier of the grammar,
within some levels of nesting. -/
inductive Leveled : Tier → Nat → List LeveledLexeme → Expr → Prop where
  | ofComparison {d : Nat} {ls : List LeveledLexeme} {e : Expr} :
      Leveled .comparison d ls e → Leveled .logical d ls e
  | logical {d : Nat} {ls rs : List LeveledLexeme} {left right : Expr} {operator : Connective} :
      Leveled .comparison d ls left → Leveled .logical (d + 1) rs right →
      Leveled .logical d (ls ++ (.connective operator, some (d + 1)) :: rs)
        (.logical left operator right)
  | ofUnary {d : Nat} {ls : List LeveledLexeme} {e : Expr} :
      Leveled .unary d ls e → Leveled .comparison d ls e
  | comparison {d : Nat} {ls rs : List LeveledLexeme} {left right : Expr} {operator : Comparison} :
      Leveled .unary d ls left → Leveled .unary d rs right →
      Leveled .comparison d (ls ++ (.comparison operator, none) :: rs)
        (.comparison left operator right)
  | not {d : Nat} {ls : List LeveledLexeme} {e : Expr} :
      Leveled .unary (d + 1) ls e → Leveled .unary d ((.not, some (d + 1)) :: ls) (.not e)
  | ofPrimary {d : Nat} {ls : List LeveledLexeme} {e : Expr} :
      Leveled .primary d ls e → Leveled .unary d ls e
  | group {d : Nat} {ls : List LeveledLexeme} {e : Expr} :
      Leveled .logical (d + 1) ls e →
      Leveled .primary d ((.openParen, some (d + 1)) :: ls ++ [(.closeParen, none)]) e
  | variableName {d : Nat} {name : String} :
      Leveled .primary d [(.variable name, none)] (.variable name)
  | memberName {d : Nat} {owner key : String} :
      Leveled .primary d
        [(.member owner, none), (.literal key, none), (.closeBrace, none), (.closeParen, none)]
        (.member owner (.name key))
  | memberIndex {d : Nat} {owner numeral : String} {v : Int64} :
      Decimal.Denotes numeral v →
      Leveled .primary d
        [(.member owner, none), (.number numeral, none), (.closeBrace, none), (.closeParen, none)]
        (.member owner (.index v))
  | call {d : Nat} {callee : String} {parts : List (List LeveledLexeme × Expr)} :
      (∀ part ∈ parts, Leveled .logical (d + 1) part.1 part.2) →
      Leveled .primary d
        ((.call callee, some (d + 1)) :: separatedLeveled (parts.map Prod.fst) ++
          [(.closeParen, none)])
        (.call callee (parts.map Prod.snd))
  | array {d : Nat} {parts : List (List LeveledLexeme × Expr)} :
      (∀ part ∈ parts, Leveled .logical (d + 1) part.1 part.2) →
      Leveled .primary d
        ((.openBracket, some (d + 1)) :: separatedLeveled (parts.map Prod.fst) ++
          [(.closeBracket, none)])
        (.array (parts.map Prod.snd))
  | object {d : Nat} {entries : List (String × List LeveledLexeme × Expr)} :
      (∀ entry ∈ entries, Leveled .logical (d + 1) entry.2.1 entry.2.2) →
      Leveled .primary d
        ((.openBrace, some (d + 1)) :: separatedLeveled (entries.map leveledEntryPart) ++
          [(.closeBrace, none)])
        (.object (entries.map fun entry => (entry.1, entry.2.2)))
  | text {d : Nat} {value : String} : Leveled .primary d [(.literal value, none)] (.text value)
  | number {d : Nat} {numeral : String} {v : Int64} :
      Decimal.Denotes numeral v → Leveled .primary d [(.number numeral, none)] (.number v)

variable {limit : Nat}

/-! ## Levels within a limit -/

/-- Without lexemes no level is opened. -/
@[simp] theorem levelsWithin_nil : LevelsWithin limit [] := by simp [LevelsWithin]

/-- The levels of lexemes are within a limit if that of the first one and those of the others are.
-/
@[simp] theorem levelsWithin_cons {entry : LeveledLexeme} {entries : List LeveledLexeme} :
    LevelsWithin limit (entry :: entries) ↔
      (∀ level ∈ entry.2, level ≤ limit) ∧ LevelsWithin limit entries :=
  List.forall_mem_cons

/-- The levels of lexemes behind each other are within a limit if those on either side are. -/
@[simp] theorem levelsWithin_append {first second : List LeveledLexeme} :
    LevelsWithin limit (first ++ second) ↔ LevelsWithin limit first ∧ LevelsWithin limit second :=
  List.forall_mem_append

/-- The levels of a list are within a limit if those of each part are. -/
@[simp] theorem levelsWithin_separated {parts : List (List LeveledLexeme)} :
    LevelsWithin limit (separatedLeveled parts) ↔ ∀ part ∈ parts, LevelsWithin limit part :=
  forall_mem_intercalate (by simp) parts

/-- The levels of an entry are those of its value. -/
theorem levelsWithin_entryPart {entry : String × List LeveledLexeme × Expr} :
    LevelsWithin limit (leveledEntryPart entry) ↔ LevelsWithin limit entry.2.1 := by
  simp [leveledEntryPart]

/-- Without their levels, the parts of a list still have commas between them. -/
theorem map_fst_separatedLeveled (parts : List (List LeveledLexeme)) :
    (separatedLeveled parts).map Prod.fst = separated (parts.map (List.map Prod.fst)) :=
  map_intercalate Prod.fst _ parts

/-! ## The grammar with a limit -/

/-- The parts of a list without their levels. -/
def withoutLevels (part : List LeveledLexeme × Expr) : List Lexeme × Expr :=
  (part.1.map Prod.fst, part.2)

/-- What is derived with levels within a limit is derived under that limit. -/
theorem Leveled.derives {tier : Tier} {d : Nat} {entries : List LeveledLexeme} {e : Expr}
    (leveled : Leveled tier d entries e) (within : LevelsWithin limit entries) :
    Derives limit tier d (entries.map Prod.fst) e := by
  induction leveled with
  | ofComparison _ induction => exact .ofComparison (induction within)
  | logical _ _ leftDerives rightDerives =>
      obtain ⟨left, room, right⟩ : _ ∧ _ ∧ _ := by simpa using within
      simpa using Derives.logical (leftDerives left) room (rightDerives right)
  | ofUnary _ induction => exact .ofUnary (induction within)
  | comparison _ _ leftDerives rightDerives =>
      obtain ⟨left, right⟩ : _ ∧ _ := by simpa using within
      simpa using Derives.comparison (leftDerives left) (rightDerives right)
  | not _ induction =>
      obtain ⟨room, inner⟩ : _ ∧ _ := by simpa using within
      exact .not room (induction inner)
  | ofPrimary _ induction => exact .ofPrimary (induction within)
  | group _ induction =>
      obtain ⟨room, inner⟩ : _ ∧ _ := by simpa using within
      simpa using Derives.group room (induction inner)
  | variableName => exact .variableName
  | memberName => exact .memberName
  | memberIndex denotes => exact .memberIndex denotes
  | @call d callee parts _ induction =>
      obtain ⟨room, inside⟩ : _ ∧ ∀ part ∈ parts.map Prod.fst, LevelsWithin limit part := by
        simpa using within
      have all : ∀ part ∈ parts.map withoutLevels, Derives limit .logical (d + 1) part.1 part.2 :=
        List.forall_mem_map.mpr fun part member =>
          induction part member (List.forall_mem_map.mp inside part member)
      simpa [map_fst_separatedLeveled, withoutLevels, Function.comp_def] using
        @Derives.call _ _ callee _ room all
  | @array d parts _ induction =>
      obtain ⟨room, inside⟩ : _ ∧ ∀ part ∈ parts.map Prod.fst, LevelsWithin limit part := by
        simpa using within
      have all : ∀ part ∈ parts.map withoutLevels, Derives limit .logical (d + 1) part.1 part.2 :=
        List.forall_mem_map.mpr fun part member =>
          induction part member (List.forall_mem_map.mp inside part member)
      simpa [map_fst_separatedLeveled, withoutLevels, Function.comp_def] using
        Derives.array room all
  | @object d entries _ induction =>
      obtain ⟨room, inside⟩ : _ ∧ ∀ part ∈ entries.map leveledEntryPart,
          LevelsWithin limit part := by
        simpa using within
      have all : ∀ entry ∈ entries.map (Prod.map id withoutLevels),
          Derives limit .logical (d + 1) entry.2.1 entry.2.2 :=
        List.forall_mem_map.mpr fun entry member => induction entry member
          (levelsWithin_entryPart.mp (List.forall_mem_map.mp inside entry member))
      simpa [map_fst_separatedLeveled, withoutLevels, Function.comp_def, entryPart,
        leveledEntryPart] using Derives.object room all
  | text => exact .text
  | number denotes => exact .number denotes

/-- A list is the image of another one if each of its elements is the image of something. -/
theorem exists_map_eq {α β : Type} {f : β → α} {P : β → Prop} {xs : List α}
    (each : ∀ x ∈ xs, ∃ y, f y = x ∧ P y) : ∃ ys : List β, ys.map f = xs ∧ ∀ y ∈ ys, P y := by
  induction xs with
  | nil => exact ⟨[], rfl, by simp⟩
  | cons x xs induction =>
      obtain ⟨⟨y, rfl, holds⟩, later⟩ := List.forall_mem_cons.mp each
      obtain ⟨ys, rfl, all⟩ := induction later
      exact ⟨y :: ys, rfl, List.forall_mem_cons.mpr ⟨holds, all⟩⟩

/-- The parts of a list, with their levels. -/
theorem exists_leveledParts {d : Nat} {parts : List (List Lexeme × Expr)}
    (each : ∀ part ∈ parts, ∃ entries, entries.map Prod.fst = part.1 ∧
      LevelsWithin limit entries ∧ Leveled .logical d entries part.2) :
    ∃ leveled : List (List LeveledLexeme × Expr), leveled.map withoutLevels = parts ∧
      (∀ part ∈ leveled, LevelsWithin limit part.1) ∧
      ∀ part ∈ leveled, Leveled .logical d part.1 part.2 := by
  have origins : ∀ part ∈ parts, ∃ leveled : List LeveledLexeme × Expr,
      withoutLevels leveled = part ∧
        LevelsWithin limit leveled.1 ∧ Leveled .logical d leveled.1 leveled.2 := by
    intro part member
    obtain ⟨entries, same, found⟩ := each part member
    exact ⟨(entries, part.2), Prod.ext same rfl, found⟩
  obtain ⟨leveled, same, all⟩ := exists_map_eq origins
  exact ⟨leveled, same, fun part member => (all part member).1,
    fun part member => (all part member).2⟩

/-- The entries of an object, with their levels. -/
theorem exists_leveledEntries {d : Nat} {entries : List (String × List Lexeme × Expr)}
    (each : ∀ entry ∈ entries, ∃ part, part.map Prod.fst = entry.2.1 ∧
      LevelsWithin limit part ∧ Leveled .logical d part entry.2.2) :
    ∃ leveled : List (String × List LeveledLexeme × Expr),
      leveled.map (Prod.map id withoutLevels) = entries ∧
      (∀ entry ∈ leveled, LevelsWithin limit entry.2.1) ∧
      ∀ entry ∈ leveled, Leveled .logical d entry.2.1 entry.2.2 := by
  have origins : ∀ entry ∈ entries, ∃ leveled : String × List LeveledLexeme × Expr,
      Prod.map id withoutLevels leveled = entry ∧
        LevelsWithin limit leveled.2.1 ∧ Leveled .logical d leveled.2.1 leveled.2.2 := by
    intro entry member
    obtain ⟨part, same, found⟩ := each entry member
    exact ⟨(entry.1, part, entry.2.2), Prod.ext rfl (Prod.ext same rfl), found⟩
  obtain ⟨leveled, same, all⟩ := exists_map_eq origins
  exact ⟨leveled, same, fun entry member => (all entry member).1,
    fun entry member => (all entry member).2⟩

/-- What is derived under a limit is derived with levels within it. -/
theorem Derives.exists_leveled {tier : Tier} {d : Nat} {ls : List Lexeme} {e : Expr}
    (derivation : Derives limit tier d ls e) :
    ∃ entries, entries.map Prod.fst = ls ∧ LevelsWithin limit entries ∧
      Leveled tier d entries e := by
  induction derivation with
  | ofComparison _ induction =>
      obtain ⟨entries, rfl, within, leveled⟩ := induction
      exact ⟨entries, rfl, within, .ofComparison leveled⟩
  | @logical d ls rs left right operator _ room _ leftLeveled rightLeveled =>
      obtain ⟨first, rfl, withinFirst, leveledFirst⟩ := leftLeveled
      obtain ⟨second, rfl, withinSecond, leveledSecond⟩ := rightLeveled
      exact ⟨first ++ (.connective operator, some (d + 1)) :: second, by simp,
        by simp [withinFirst, room, withinSecond], .logical leveledFirst leveledSecond⟩
  | ofUnary _ induction =>
      obtain ⟨entries, rfl, within, leveled⟩ := induction
      exact ⟨entries, rfl, within, .ofUnary leveled⟩
  | @comparison d ls rs left right operator _ _ leftLeveled rightLeveled =>
      obtain ⟨first, rfl, withinFirst, leveledFirst⟩ := leftLeveled
      obtain ⟨second, rfl, withinSecond, leveledSecond⟩ := rightLeveled
      exact ⟨first ++ (.comparison operator, none) :: second, by simp,
        by simp [withinFirst, withinSecond], .comparison leveledFirst leveledSecond⟩
  | @not d ls e room _ induction =>
      obtain ⟨entries, rfl, within, leveled⟩ := induction
      exact ⟨(.not, some (d + 1)) :: entries, rfl, by simp [room, within], .not leveled⟩
  | ofPrimary _ induction =>
      obtain ⟨entries, rfl, within, leveled⟩ := induction
      exact ⟨entries, rfl, within, .ofPrimary leveled⟩
  | @group d ls e room _ induction =>
      obtain ⟨entries, rfl, within, leveled⟩ := induction
      exact ⟨(.openParen, some (d + 1)) :: entries ++ [(.closeParen, none)], by simp,
        by simp [room, within], .group leveled⟩
  | variableName => exact ⟨_, rfl, by simp, .variableName⟩
  | memberName => exact ⟨_, rfl, by simp, .memberName⟩
  | memberIndex denotes => exact ⟨_, rfl, by simp, .memberIndex denotes⟩
  | @call d callee parts room _ induction =>
      obtain ⟨leveled, rfl, within, all⟩ := exists_leveledParts induction
      have derived := @Leveled.call d callee leveled all
      refine ⟨_, ?_, ?_, by simpa [withoutLevels, Function.comp_def] using derived⟩
      · simp [map_fst_separatedLeveled, withoutLevels, Function.comp_def]
      · have inside : ∀ part ∈ leveled.map Prod.fst, LevelsWithin limit part :=
          List.forall_mem_map.mpr within
        simpa [room] using inside
  | @array d parts room _ induction =>
      obtain ⟨leveled, rfl, within, all⟩ := exists_leveledParts induction
      refine ⟨_, ?_, ?_, by simpa [withoutLevels, Function.comp_def] using Leveled.array all⟩
      · simp [map_fst_separatedLeveled, withoutLevels, Function.comp_def]
      · have inside : ∀ part ∈ leveled.map Prod.fst, LevelsWithin limit part :=
          List.forall_mem_map.mpr within
        simpa [room] using inside
  | @object d entries room _ induction =>
      obtain ⟨leveled, rfl, within, all⟩ := exists_leveledEntries induction
      refine ⟨_, ?_, ?_, by simpa [withoutLevels, Function.comp_def] using Leveled.object all⟩
      · simp [map_fst_separatedLeveled, withoutLevels, Function.comp_def, entryPart,
          leveledEntryPart]
      · have inside : ∀ part ∈ leveled.map leveledEntryPart, LevelsWithin limit part :=
          List.forall_mem_map.mpr fun entry member =>
            levelsWithin_entryPart.mpr (within entry member)
        simpa [room] using inside
  | text => exact ⟨_, rfl, by simp, .text⟩
  | number denotes => exact ⟨_, rfl, by simp, .number denotes⟩

/-- The grammar with a limit derives what the grammar without one derives with levels within the
limit. -/
theorem derives_iff_leveled {tier : Tier} {d : Nat} {ls : List Lexeme} {e : Expr} :
    Derives limit tier d ls e ↔ ∃ entries, entries.map Prod.fst = ls ∧
      LevelsWithin limit entries ∧ Leveled tier d entries e := by
  constructor
  · exact Derives.exists_leveled
  · rintro ⟨entries, rfl, within, leveled⟩
    exact leveled.derives within

end EdgeExpression
