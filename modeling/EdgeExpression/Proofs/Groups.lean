import EdgeExpression.Proofs.Level
import EdgeExpression.Proofs.SpacedText

/-!
# Groups that can go

Texts of one expression differ in their groups, in the spelling of their numerals and
literals, and in their blanks. The canonical lexemes of an expression are what is left
of the lexemes of any of its texts when numerals are written canonically and some of
the groups are struck, each with both of its parentheses.

Strikes only make a text shorter, so no text of an expression has fewer lexemes than
the canonical one, and no group of the canonical text can be struck. What is struck
never brings operands together: an operand cannot end in front of a group nor begin
behind one.
-/
namespace EdgeExpression

namespace Lexeme

/-- What closes the part of a text that a lexeme opens. -/
def closing : Lexeme → List Lexeme
  | .openParen | .call _ => [.closeParen]
  | .openBracket => [.closeBracket]
  | .openBrace => [.closeBrace]
  | .member _ => [.closeBrace, .closeParen]
  | _ => []

/-- The lexemes that close something. -/
def isClosing : Lexeme → Bool
  | .closeParen | .closeBracket | .closeBrace => true
  | _ => false

/-- A numeral is canonical if it is the one of its value; all else is as it is. -/
def canonical : Lexeme → Lexeme
  | .number numeral => .number (Decimal.ofInt (Decimal.value numeral.toList))
  | other => other

end Lexeme

/-- Everything that is opened is closed in the same lexemes, by its own kind and in the
reverse order, and nothing else is closed. -/
inductive Balanced : List Lexeme → Prop where
  | nil : Balanced []
  | cons {lexeme : Lexeme} {inside rest : List Lexeme} :
      lexeme.isClosing = false → Balanced inside → Balanced rest →
      Balanced (lexeme :: inside ++ lexeme.closing ++ rest)

/-- One group is struck: its opening parenthesis and the one that closes it. -/
inductive Struck : List Lexeme → List Lexeme → Prop where
  | group {before inside behind : List Lexeme} : Balanced inside →
      Struck (before ++ .openParen :: inside ++ .closeParen :: behind)
        (before ++ inside ++ behind)

/-- Any number of groups are struck, one after the other. -/
abbrev Strikes : List Lexeme → List Lexeme → Prop := Relation.ReflTransGen Struck

/-! ## Balance -/

namespace Balanced

/-- Balanced lexemes behind each other are balanced. -/
theorem append {first second : List Lexeme} (balanced : Balanced first)
    (following : Balanced second) : Balanced (first ++ second) := by
  induction balanced with
  | nil => exact following
  | @cons lexeme inside rest opens inner _ _ induction =>
      rw [List.append_assoc]
      exact .cons opens inner induction

/-- A lexeme that neither opens nor closes anything. -/
theorem plain {lexeme : Lexeme} (closed : lexeme.isClosing = false)
    (opened : lexeme.closing = []) : Balanced [lexeme] := by
  have single : Balanced (lexeme :: [] ++ lexeme.closing ++ []) := .cons closed .nil .nil
  rwa [opened] at single

/-- A part of a text between what opens and what closes it. -/
theorem enclosed {lexeme : Lexeme} {inside : List Lexeme} (closed : lexeme.isClosing = false)
    (balanced : Balanced inside) : Balanced (lexeme :: inside ++ lexeme.closing) := by
  have whole : Balanced (lexeme :: inside ++ lexeme.closing ++ []) := .cons closed balanced .nil
  rwa [List.append_nil] at whole

/-- Balanced parts with commas between them are balanced. -/
theorem separated {parts : List (List Lexeme)} (balanced : ∀ part ∈ parts, Balanced part) :
    Balanced (separated parts) := by
  induction parts with
  | nil => exact .nil
  | cons part rest induction =>
      obtain ⟨first, others⟩ := List.forall_mem_cons.mp balanced
      cases rest with
      | nil => simpa using first
      | cons next rest =>
          rw [separated_cons_cons]
          have comma : Balanced [.comma] := .plain rfl rfl
          exact first.append (comma.append (induction others))

end Balanced

/-- Whatever the grammar derives is balanced. -/
theorem balanced_of_derives {limit : Nat} {tier : Tier} {d : Nat} {ls : List Lexeme} {e : Expr}
    (derivation : Derives limit tier d ls e) : Balanced ls := by
  induction derivation with
  | ofComparison _ induction | ofUnary _ induction | ofPrimary _ induction => exact induction
  | @logical _ _ _ _ _ operator _ _ _ left right =>
      have between : Balanced [.connective operator] := .plain rfl rfl
      exact left.append (between.append right)
  | @comparison _ _ _ _ _ operator _ _ left right =>
      have between : Balanced [.comparison operator] := .plain rfl rfl
      exact left.append (between.append right)
  | not _ _ induction =>
      have before : Balanced [.not] := .plain rfl rfl
      exact before.append induction
  | group _ _ induction => exact .enclosed rfl induction
  | variableName | text | number => exact .plain rfl rfl
  | @memberName _ owner key =>
      have inside : Balanced [.literal key] := .plain rfl rfl
      exact .enclosed rfl inside
  | @memberIndex _ owner numeral =>
      have inside : Balanced [.number numeral] := .plain rfl rfl
      exact .enclosed rfl inside
  | @call _ callee parts _ _ induction =>
      have inside : Balanced (separated (parts.map Prod.fst)) :=
        .separated (List.forall_mem_map.mpr induction)
      exact .enclosed rfl inside
  | @array _ parts _ _ induction =>
      have inside : Balanced (separated (parts.map Prod.fst)) :=
        .separated (List.forall_mem_map.mpr induction)
      exact .enclosed rfl inside
  | @object _ entries _ _ induction =>
      have entry (key : String) : Balanced [.literal key, .colon] :=
        .append (.plain rfl rfl) (.plain rfl rfl)
      have inside : Balanced (separated (entries.map entryPart)) :=
        .separated (List.forall_mem_map.mpr fun part member =>
          (entry part.1).append (induction part member))
      exact .enclosed rfl inside

/-- The canonical lexemes of an expression are balanced. -/
theorem balanced_lexemes (e : Expr) : Balanced e.lexemes :=
  balanced_of_derives ((derives_lexemes_iff e.level e).mpr (Nat.le_refl _))

/-! ## Strikes -/

namespace Struck

variable {ls us : List Lexeme}

/-- Striking goes on in any surroundings. -/
theorem inside (before behind : List Lexeme) (struck : Struck ls us) :
    Struck (before ++ ls ++ behind) (before ++ us ++ behind) := by
  obtain @⟨left, inner, right, balanced⟩ := struck
  have wider := @Struck.group (before ++ left) inner (right ++ behind) balanced
  simpa using wider

/-- A strike takes two lexemes. -/
theorem length (struck : Struck ls us) : ls.length = us.length + 2 := by
  obtain @⟨left, inner, right, balanced⟩ := struck
  simp only [List.length_append, List.length_cons]
  omega

/-- Nothing is left that was not there before. -/
theorem subset (struck : Struck ls us) : us ⊆ ls := by
  obtain @⟨left, inner, right, balanced⟩ := struck
  intro lexeme
  simp only [List.mem_append, List.mem_cons]
  tauto

end Struck

namespace Strikes

variable {ls us rs vs : List Lexeme}

/-- Strikes add no lexeme. -/
theorem length_le (strikes : Strikes ls us) : us.length ≤ ls.length := by
  induction strikes with
  | refl => exact Nat.le_refl _
  | tail _ struck induction =>
      have fewer := struck.length
      omega

/-- Nothing is left that was not there before, after any number of strikes. -/
theorem subset (strikes : Strikes ls us) : us ⊆ ls := by
  induction strikes with
  | refl => exact List.Subset.refl _
  | tail _ struck induction => exact List.Subset.trans struck.subset induction

/-- Any number of strikes go on in any surroundings. -/
theorem inside (before behind : List Lexeme) (strikes : Strikes ls us) :
    Strikes (before ++ ls ++ behind) (before ++ us ++ behind) :=
  strikes.lift (fun lexemes => before ++ lexemes ++ behind) fun _ _ => Struck.inside before behind

/-- Strikes on the left and on the right of a lexeme. -/
theorem around (lexeme : Lexeme) (left : Strikes ls us) (right : Strikes rs vs) :
    Strikes (ls ++ lexeme :: rs) (us ++ lexeme :: vs) := by
  have first := left.inside [] (lexeme :: rs)
  have second := right.inside (us ++ [lexeme]) []
  simp only [List.nil_append, List.append_nil, List.append_assoc, List.singleton_append]
    at first second
  exact first.trans second

/-- Strikes between what opens a part and what closes it. -/
theorem enclosed (opening closing : Lexeme) (strikes : Strikes ls us) :
    Strikes (opening :: ls ++ [closing]) (opening :: us ++ [closing]) :=
  strikes.inside [opening] [closing]

/-- Strikes in each part of a list. -/
theorem inParts {α : Type} {items : List α} {part left : α → List Lexeme}
    (strikes : ∀ item ∈ items, Strikes (part item) (left item)) :
    Strikes (separated (items.map part)) (separated (items.map left)) := by
  induction items with
  | nil => exact .refl
  | cons item rest induction =>
      obtain ⟨first, others⟩ := List.forall_mem_cons.mp strikes
      cases rest with
      | nil => simpa using first
      | cons next rest =>
          simp only [List.map_cons, separated_cons_cons]
          exact first.around .comma (induction others)

/-- A group around balanced lexemes can be struck where none is needed. -/
theorem grouped {group needed : Bool} (balanced : Balanced ls)
    (enough : needed = true → group = true) :
    Strikes (Expr.grouped group ls) (Expr.grouped needed ls) := by
  cases group with
  | false =>
      obtain rfl : needed = false := by simpa using enough
      exact .refl
  | true =>
      cases needed with
      | true => exact .refl
      | false =>
          have struck := @Struck.group [] ls [] balanced
          exact .single (by simpa [Expr.grouped] using struck)

end Strikes

/-- What stands in a group on a tier does so on every tighter one. -/
theorem Tier.groups_unary_of_comparison {e : Expr} (grouped : comparison.groups e = true) :
    unary.groups e = true := by
  cases e <;> first | rfl | cases grouped

/-- A numeral and the number that it denotes have one canonical spelling. -/
theorem canonical_of_denotes {numeral : String} {v : Int64}
    (denotes : Decimal.Denotes numeral v) :
    Lexeme.canonical (.number numeral) = .number (Decimal.ofInt64 v) := by
  obtain ⟨_, _, exact⟩ := denotes
  rw [Lexeme.canonical, Decimal.ofInt64, exact]

/-- Numerals are written canonically in each part of a list. -/
theorem map_canonical_separated (parts : List (List Lexeme)) :
    (separated parts).map Lexeme.canonical =
      separated (parts.map (List.map Lexeme.canonical)) :=
  map_intercalate Lexeme.canonical _ parts

/-- Strikes in the parts of a list, up to the spelling of numerals. -/
theorem Strikes.listing {α : Type} {items : List α} {part left : α → List Lexeme}
    (opening closing : Lexeme) (opens : opening.canonical = opening)
    (closes : closing.canonical = closing)
    (strikes : ∀ item ∈ items, Strikes ((part item).map Lexeme.canonical) (left item)) :
    Strikes ((opening :: separated (items.map part) ++ [closing]).map Lexeme.canonical)
      (opening :: separated (items.map left) ++ [closing]) := by
  have inside := (Strikes.inParts strikes).enclosed opening closing
  simpa [map_canonical_separated, opens, closes, Function.comp_def] using inside

/-- The canonical lexemes of an expression are left of the lexemes of any text when some
groups are struck. Proof: by induction on the derivation. Each rule puts its own lexemes
around what is left of its parts; where the canonical text sets a group around an
operand, the derivation has one as well, and every other group is struck. -/
theorem strikes_of_derives {limit : Nat} {tier : Tier} {d : Nat} {ls : List Lexeme} {e : Expr}
    (derivation : Derives limit tier d ls e) :
    Strikes (ls.map Lexeme.canonical) (Expr.grouped (tier.groups e) e.lexemes) := by
  induction derivation with
  | @ofComparison _ _ e _ induction =>
      exact induction.trans (Strikes.grouped (balanced_lexemes e) (by simp [Tier.groups]))
  | @ofUnary _ _ e _ induction =>
      exact induction.trans (Strikes.grouped (balanced_lexemes e) Tier.groups_unary_of_comparison)
  | ofPrimary _ induction => exact induction
  | @logical _ _ _ _ _ operator _ _ _ left right =>
      rw [List.map_append, List.map_cons]
      exact left.around (.connective operator) right
  | @comparison _ _ _ _ _ operator _ _ left right =>
      rw [List.map_append, List.map_cons]
      exact left.around (.comparison operator) right
  | not _ _ induction =>
      have negated := induction.inside [.not] []
      rw [List.append_nil, List.append_nil] at negated
      exact negated
  | @group _ _ e _ _ induction =>
      have inner := induction.enclosed .openParen .closeParen
      rw [List.cons_append, List.map_cons, List.map_append]
      exact inner.trans (@Strikes.grouped _ true _ (balanced_lexemes e) fun _ => rfl)
  | variableName | memberName | text => exact .refl
  | @memberIndex _ _ _ _ denotes =>
      simp only [List.map_cons, canonical_of_denotes denotes]
      exact .refl
  | @number _ _ _ denotes =>
      simp only [List.map_cons, canonical_of_denotes denotes]
      exact .refl
  | @call _ callee parts _ _ induction =>
      change Strikes _ (Expr.call callee (parts.map Prod.snd)).lexemes
      rw [Expr.lexemes_call, List.map_map]
      exact Strikes.listing (.call callee) .closeParen rfl rfl induction
  | @array _ parts _ _ induction =>
      change Strikes _ (Expr.array (parts.map Prod.snd)).lexemes
      rw [Expr.lexemes_array, List.map_map]
      exact Strikes.listing .openBracket .closeBracket rfl rfl induction
  | @object _ entries _ _ induction =>
      change Strikes _ (Expr.object (entries.map fun entry => (entry.1, entry.2.2))).lexemes
      rw [Expr.lexemes_object, List.map_map]
      refine Strikes.listing .openBrace .closeBrace rfl rfl fun entry member => ?_
      have value := (induction entry member).inside [.literal entry.1, .colon] []
      rw [List.append_nil, List.append_nil] at value
      exact value

/-! ## The lexemes of canonical text -/

/-- A lexeme that can be written can be written canonically. -/
theorem Lexeme.Legible.canonical {lexeme : Lexeme} (legible : lexeme.Legible) :
    lexeme.canonical.Legible := by
  cases lexeme with
  | number numeral =>
      simpa [Lexeme.canonical, Lexeme.Legible] using isNumeral_ofInt (Decimal.value numeral.toList)
  | _ => exact legible

/-- An expression that has a text is made of legible lexemes. -/
theorem legible_lexemes_of_derives {limit d : Nat} {ls : List Lexeme} {e : Expr}
    (derivation : Derives limit .logical d ls e) (legible : ∀ lexeme ∈ ls, lexeme.Legible) :
    ∀ lexeme ∈ e.lexemes, lexeme.Legible := by
  have strikes : Strikes (ls.map Lexeme.canonical) e.lexemes := strikes_of_derives derivation
  intro lexeme member
  obtain ⟨source, present, rfl⟩ := List.mem_map.mp (strikes.subset member)
  exact (legible source present).canonical

/-- No text of an expression has fewer lexemes than the canonical one. -/
theorem length_lexemes_le {source : String} {ls : List Lexeme} {e : Expr}
    (consists : ConsistsOf source ls) (parsed : Expr.parse source = .ok e) :
    e.lexemes.length ≤ ls.length := by
  obtain ⟨us, same, derivation⟩ := (parse_eq_ok_iff source e).mp parsed
  have strikes : Strikes (us.map Lexeme.canonical) e.lexemes := strikes_of_derives derivation
  have fewer := strikes.length_le
  rw [List.length_map] at fewer
  rwa [consists.unique same]

/-- The canonical lexemes of an expression are apart. -/
theorem isChain_lexemes (e : Expr) : e.lexemes.IsChain Lexeme.Apart :=
  (derives_lexemes e).isChain

/-- The canonical text of legible lexemes consists of them. -/
theorem consistsOf_render {e : Expr} (legible : ∀ lexeme ∈ e.lexemes, lexeme.Legible) :
    ConsistsOf e.render e.lexemes :=
  consistsOf_spacedText legible (isChain_lexemes e)

/-! ## No group of canonical text can go -/

namespace Lexeme

variable {before behind : List Lexeme}

/-- Without an opening parenthesis its neighbours are apart, since no operand ends in
front of it. -/
theorem isChain_without_openParen (apart : (before ++ .openParen :: behind).IsChain Apart) :
    (before ++ behind).IsChain Apart := by
  obtain ⟨left, right, seam⟩ := List.isChain_append.mp apart
  refine List.isChain_append.mpr ⟨left, right.tail, ?_⟩
  intro last atEnd first _ ends
  have begins := seam last atEnd .openParen rfl ends
  cases begins

/-- Without a closing parenthesis its neighbours are apart, since no operand begins
behind it. -/
theorem isChain_without_closeParen (apart : (before ++ .closeParen :: behind).IsChain Apart) :
    (before ++ behind).IsChain Apart := by
  obtain ⟨left, right, _⟩ := List.isChain_append.mp apart
  refine List.isChain_append.mpr ⟨left, right.tail, ?_⟩
  intro last _ first atFront _
  exact (List.isChain_cons.mp right).1 first atFront rfl

end Lexeme

/-- Without one of its groups the canonical text of an expression still consists of the
remaining lexemes. -/
theorem consistsOf_without_group {e : Expr} {before inside behind : List Lexeme}
    (legible : ∀ lexeme ∈ e.lexemes, lexeme.Legible)
    (split : e.lexemes = before ++ .openParen :: inside ++ .closeParen :: behind) :
    ConsistsOf (spacedText (before ++ inside ++ behind)) (before ++ inside ++ behind) := by
  have apart := isChain_lexemes e
  rw [split] at apart legible
  have withoutClosing := Lexeme.isChain_without_closeParen apart
  rw [List.append_assoc, List.cons_append] at withoutClosing
  have chain := Lexeme.isChain_without_openParen withoutClosing
  rw [← List.append_assoc] at chain
  have remaining : ∀ lexeme ∈ before ++ inside ++ behind, lexeme.Legible := by
    intro lexeme member
    apply legible
    simp only [List.mem_append, List.mem_cons] at member ⊢
    tauto
  exact consistsOf_spacedText remaining chain

/-- A group shows its parentheses without any space around them. -/
theorem spacedText_group (before inside behind : List Lexeme) :
    spacedText (before ++ .openParen :: inside ++ .closeParen :: behind) =
      spacedText before ++ "(" ++ spacedText inside ++ ")" ++ spacedText behind := by
  rw [spacedText_append, spacedText_append, spacedText_cons, spacedText_cons,
    ← String.append_assoc, ← String.append_assoc]
  rfl

/-- Printing what was read only strikes groups, and strikes all that can go. The tokens of
the canonical text, blanks aside, are what is left of those of the text that was read,
when its numerals are spelled canonically and some of its groups are struck. No text of
the expression has fewer tokens. Without an opening parenthesis that is left and a closing
one behind it, its own or another, neither the canonical text nor any text of the same
tokens is read as the expression. -/
theorem render_has_fewest_groups (source : String) (e : Expr)
    (parsed : Expr.parse source = .ok e) :
    ∃ ls, ConsistsOf source ls ∧ ConsistsOf e.render e.lexemes ∧
      Strikes (ls.map Lexeme.canonical) e.lexemes ∧
      (∀ other, Expr.parse other = .ok e →
        ∃ us, ConsistsOf other us ∧ e.lexemes.length ≤ us.length) ∧
      ∀ before inside behind,
        e.lexemes = before ++ .openParen :: inside ++ .closeParen :: behind →
        e.render = spacedText before ++ "(" ++ spacedText inside ++ ")" ++ spacedText behind ∧
        Expr.parse (spacedText before ++ spacedText inside ++ spacedText behind) ≠ .ok e ∧
        ∀ other, ConsistsOf other (before ++ inside ++ behind) → Expr.parse other ≠ .ok e := by
  obtain ⟨ls, consists, derivation⟩ := (parse_eq_ok_iff source e).mp parsed
  have legible := legible_lexemes_of_derives derivation consists.legible
  refine ⟨ls, consists, consistsOf_render legible, strikes_of_derives derivation, ?_, ?_⟩
  · intro other otherParsed
    obtain ⟨us, otherConsists, _⟩ := (parse_eq_ok_iff other e).mp otherParsed
    exact ⟨us, otherConsists, length_lexemes_le otherConsists otherParsed⟩
  · intro before inside behind split
    have shown : e.render = _ := congrArg spacedText split
    have refused : ∀ other, ConsistsOf other (before ++ inside ++ behind) →
        Expr.parse other ≠ .ok e := by
      intro other otherConsists otherParsed
      have bound := length_lexemes_le otherConsists otherParsed
      simp only [split, List.length_append, List.length_cons] at bound
      omega
    have text := consistsOf_without_group legible split
    rw [spacedText_append, spacedText_append] at text
    exact ⟨shown.trans (spacedText_group before inside behind), refused _ text, refused⟩

/-- Of the groups in `!((01) < 2)` the outer one is left, since without it the negation
would be compared. -/
theorem negated_comparison_has_fewest_groups :
    Expr.parse "!((01) < 2)" = .ok (.not (.comparison (.number 1) .less (.number 2))) ∧
      (∃ ls, ConsistsOf "!((01) < 2)" ls ∧ Strikes (ls.map Lexeme.canonical)
        [.not, .openParen, .number "1", .comparison .less, .number "2", .closeParen]) ∧
      Expr.parse "!1 < 2" ≠ .ok (.not (.comparison (.number 1) .less (.number 2))) := by
  have parsed : Expr.parse "!((01) < 2)" =
      .ok (.not (.comparison (.number 1) .less (.number 2))) := by decide +kernel
  obtain ⟨ls, consists, _, strikes, _, needed⟩ := render_has_fewest_groups _ _ parsed
  obtain ⟨_, refused, _⟩ := needed [.not] [.number "1", .comparison .less, .number "2"] []
    (by decide)
  exact ⟨parsed, ⟨ls, consists, strikes⟩, refused⟩

end EdgeExpression
