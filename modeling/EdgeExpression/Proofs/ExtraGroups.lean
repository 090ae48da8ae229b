import EdgeExpression.Proofs.ExcessLevel
import EdgeExpression.Proofs.RoundTrip

/-!
# Extra groups

Around every part of an expression's canonical text any number of further groups may stand. They
cost levels of nesting, and apart from that they change nothing: within the limit the text is
read as the same expression, and beyond it the text is refused.

The parts of an expression are told by their paths: the places of the operands that lead to the
part, counted from the left at each step. The root has the empty path.
-/
namespace EdgeExpression

/-- Lexemes in a number of groups, one inside the other. -/
def enclosed (k : Nat) (ls : List Lexeme) : List Lexeme :=
  List.replicate k .openParen ++ ls ++ List.replicate k .closeParen

/-- The groups chosen for the parts of an operand, by their paths in it. -/
def below (extra : List Nat → Nat) (i : Nat) : List Nat → Nat := fun path => extra (i :: path)

namespace Expr

mutual

/-- The canonical lexemes of an expression, where each part but the expression itself stands in as
many extra groups as are chosen for its path. -/
def bodyWith : (List Nat → Nat) → Expr → List Lexeme
  | _, .text value => [.literal value]
  | _, .number value => [.number (Decimal.ofInt64 value)]
  | _, .variable name => [.variable name]
  | _, .member owner key => [.member owner, key.lexeme, .closeBrace, .closeParen]
  | extra, .call callee arguments =>
      .call callee :: [Lexeme.comma].intercalate (eachWith extra 0 arguments) ++ [.closeParen]
  | extra, .array elements =>
      .openBracket :: [Lexeme.comma].intercalate (eachWith extra 0 elements) ++ [.closeBracket]
  | extra, .object entries =>
      .openBrace :: [Lexeme.comma].intercalate (entriesWith extra 0 entries) ++ [.closeBrace]
  | extra, .not operand =>
      .not :: grouped operand.isInfix (enclosed (extra [0]) (operand.bodyWith (below extra 0)))
  | extra, .comparison left operator right =>
      grouped left.isInfix (enclosed (extra [0]) (left.bodyWith (below extra 0))) ++
        .comparison operator ::
          grouped right.isInfix (enclosed (extra [1]) (right.bodyWith (below extra 1)))
  | extra, .logical left operator right =>
      grouped left.isLogical (enclosed (extra [0]) (left.bodyWith (below extra 0))) ++
        .connective operator :: enclosed (extra [1]) (right.bodyWith (below extra 1))
termination_by structural _ e => e

/-- The lexemes of each expression of a list, in its extra groups. -/
def eachWith : (List Nat → Nat) → Nat → List Expr → List (List Lexeme)
  | _, _, [] => []
  | extra, i, e :: rest =>
      enclosed (extra [i]) (e.bodyWith (below extra i)) :: eachWith extra (i + 1) rest
termination_by structural _ _ list => list

/-- The lexemes of each entry of an object, its value in its extra groups. -/
def entriesWith : (List Nat → Nat) → Nat → List (String × Expr) → List (List Lexeme)
  | _, _, [] => []
  | extra, i, (key, e) :: rest =>
      (.literal key :: .colon :: enclosed (extra [i]) (e.bodyWith (below extra i))) ::
        entriesWith extra (i + 1) rest
termination_by structural _ _ list => list

end

/-- The canonical lexemes of an expression, where each part stands in as many extra groups as are
chosen for its path. -/
def lexemesWith (extra : List Nat → Nat) (e : Expr) : List Lexeme :=
  enclosed (extra []) (e.bodyWith extra)

/-- The canonical text of an expression with extra groups. -/
def renderWith (extra : List Nat → Nat) (e : Expr) : String := spacedText (e.lexemesWith extra)

variable {extra : List Nat → Nat}

/-- The parts of a list have their own extra groups each, chosen for the paths below their places.
-/
theorem eachWith_eq_map (i : Nat) (list : List Expr) :
    eachWith extra i list =
      (list.zipIdx i).map fun entry => entry.1.lexemesWith (below extra entry.2) := by
  induction list generalizing i with
  | nil => rfl
  | cons e rest induction => rw [eachWith, induction]; rfl

/-- The values of an object have their own extra groups each, chosen for the paths below their
places. -/
theorem entriesWith_eq_map (i : Nat) (entries : List (String × Expr)) :
    entriesWith extra i entries = (entries.zipIdx i).map fun entry =>
      .literal entry.1.1 :: .colon :: entry.1.2.lexemesWith (below extra entry.2) := by
  induction entries generalizing i with
  | nil => rfl
  | cons entry rest induction => rw [entriesWith, induction]; rfl

/-- In a call the arguments have their extra groups, and the call itself has none. -/
theorem bodyWith_call (callee : String) (arguments : List Expr) :
    (call callee arguments).bodyWith extra =
      .call callee :: separated (eachWith extra 0 arguments) ++ [.closeParen] := rfl

/-- In an array the elements have their extra groups, and the array itself has none. -/
theorem bodyWith_array (elements : List Expr) :
    (array elements).bodyWith extra =
      .openBracket :: separated (eachWith extra 0 elements) ++ [.closeBracket] := rfl

/-- In an object the values have their extra groups, and the object itself has none. -/
theorem bodyWith_object (entries : List (String × Expr)) :
    (object entries).bodyWith extra =
      .openBrace :: separated (entriesWith extra 0 entries) ++ [.closeBrace] := rfl

/-- The lexemes of an operand on a tier, in the group that the tier sets and in its extra groups. -/
def operandWith (tier : Tier) (extra : List Nat → Nat) (i : Nat) (e : Expr) : List Lexeme :=
  grouped (tier.groups e) (enclosed (extra [i]) (e.bodyWith (below extra i)))

/-- In a negation the operand has its extra groups, and the negation itself has none. -/
theorem bodyWith_not (operand : Expr) :
    (not operand).bodyWith extra = .not :: operandWith .unary extra 0 operand := rfl

/-- In a comparison both sides have their extra groups, and the comparison itself has none. -/
theorem bodyWith_comparison (left right : Expr) (operator : Comparison) :
    (comparison left operator right).bodyWith extra =
      operandWith .unary extra 0 left ++ .comparison operator ::
        operandWith .unary extra 1 right := rfl

/-- In a logical expression both sides have their extra groups, and the expression itself has none.
-/
theorem bodyWith_logical (left right : Expr) (operator : Connective) :
    (logical left operator right).bodyWith extra =
      operandWith .comparison extra 0 left ++ .connective operator ::
        operandWith .logical extra 1 right := rfl

end Expr

variable {limit d : Nat} {ls : List Lexeme} {e : Expr} {extra : List Nat → Nat}

/-! ## Lexemes with extra groups are derived -/

/-- Lexemes in no group stay as they are. -/
@[simp] theorem enclosed_zero (ls : List Lexeme) : enclosed 0 ls = ls := by simp [enclosed]

/-- The outermost of some groups is around all others. -/
theorem enclosed_succ (k : Nat) (ls : List Lexeme) :
    enclosed (k + 1) ls = .openParen :: enclosed k ls ++ [.closeParen] := by
  rw [enclosed, List.replicate_succ, List.replicate_succ']
  simp [enclosed]

/-- A group that is needed is one more around the extra ones. -/
theorem grouped_enclosed (k : Nat) (ls : List Lexeme) :
    Expr.grouped true (enclosed k ls) = enclosed (k + 1) ls := by
  rw [enclosed_succ]
  rfl

/-- Every group adds its two parentheses. -/
@[simp] theorem length_enclosed (k : Nat) (ls : List Lexeme) :
    (enclosed k ls).length = k + ls.length + k := by
  simp [enclosed, Nat.add_assoc]

/-- What is derived as a part of a list is derived in any number of groups, if there is room for
them and for the levels that it opens itself. -/
theorem derives_enclosed {own : Nat}
    (derived : ∀ d, d + own ≤ limit → Derives limit .logical d ls e) (k : Nat)
    (room : d + k + own ≤ limit) : Derives limit .logical d (enclosed k ls) e := by
  induction k generalizing d with
  | zero => simpa using derived d (by omega)
  | succ k induction =>
      rw [enclosed_succ]
      exact derives_of_primary (by decide) (.group (by omega) (induction (by omega)))

/-- An operand is derived on every tier, in any number of extra groups. -/
theorem derives_grouped_enclosed {tier : Tier} (loose : tier ≠ .primary)
    (derived : ∀ d, d + ls.length ≤ limit → Derives limit e.tier d ls e) (k : Nat)
    (room : d + (Expr.grouped (tier.groups e) (enclosed k ls)).length ≤ limit) :
    Derives limit tier d (Expr.grouped (tier.groups e) (enclosed k ls)) e := by
  have inGroup (k : Nat) (room : d + (enclosed (k + 1) ls).length ≤ limit) :
      Derives limit tier d (enclosed (k + 1) ls) e := by
    have alone : ∀ d, d + ls.length ≤ limit → Derives limit .logical d ls e :=
      fun d room => derives_of_not_groups (by decide) rfl (derived d room)
    rw [length_enclosed] at room
    rw [enclosed_succ]
    exact derives_of_primary loose (.group (by omega) (derives_enclosed alone k (by omega)))
  cases grouped : tier.groups e with
  | true =>
      rw [grouped, grouped_enclosed] at room
      rw [grouped_enclosed]
      exact inGroup k room
  | false =>
      rw [grouped] at room
      cases k with
      | zero =>
          have own := derived d (by simpa [Expr.grouped] using room)
          simpa [Expr.grouped] using derives_of_not_groups loose grouped own
      | succ k => exact inGroup k room

/-- No part of a list is longer than the list. -/
theorem length_le_separated {parts : List (List Lexeme)} {part : List Lexeme}
    (member : part ∈ parts) : part.length ≤ (separated parts).length := by
  induction parts with
  | nil => cases member
  | cons first rest induction =>
      cases rest with
      | nil => simp [List.mem_singleton.mp member]
      | cons next rest =>
          rw [separated_cons_cons, List.length_append, List.length_cons]
          rcases List.mem_cons.mp member with rfl | later
          · omega
          · have shorter := induction later
            omega

/-- An expression is derived on its own tier from its lexemes with extra groups, if there is room
for as many levels as there are lexemes. -/
def DerivedWith (limit : Nat) (e : Expr) : Prop :=
  ∀ extra d, d + (e.bodyWith extra).length ≤ limit → Derives limit e.tier d (e.bodyWith extra) e

/-- An expression is derived from its lexemes in its own extra groups as well, as a part of a list.
-/
theorem DerivedWith.lexemesWith (derived : DerivedWith limit e)
    (room : d + (e.lexemesWith extra).length ≤ limit) :
    Derives limit .logical d (e.lexemesWith extra) e := by
  have alone : ∀ d, d + (e.bodyWith extra).length ≤ limit →
      Derives limit .logical d (e.bodyWith extra) e :=
    fun d room => derives_of_not_groups (by decide) rfl (derived extra d room)
  rw [Expr.lexemesWith, length_enclosed] at room
  exact derives_enclosed alone _ (by omega)

/-- An expression is derived from its lexemes with all groups around them, as an operand. -/
theorem DerivedWith.operandWith {tier : Tier} {i : Nat} (derived : DerivedWith limit e)
    (loose : tier ≠ .primary) (room : d + (e.operandWith tier extra i).length ≤ limit) :
    Derives limit tier d (e.operandWith tier extra i) e :=
  derives_grouped_enclosed loose (derived (below extra i)) _ room

/-- The parts of a list are derived with their extra groups. -/
theorem derives_eachWith {list : List Expr} (derived : ∀ e ∈ list, DerivedWith limit e)
    (room : d + (separated (Expr.eachWith extra 0 list)).length ≤ limit) :
    ∀ part ∈ list.zipIdx.map fun entry => (entry.1.lexemesWith (below extra entry.2), entry.1),
      Derives limit .logical d part.1 part.2 := by
  rw [List.forall_mem_map]
  intro entry member
  have among : entry.1.lexemesWith (below extra entry.2) ∈ Expr.eachWith extra 0 list := by
    rw [Expr.eachWith_eq_map]
    exact List.mem_map.mpr ⟨entry, member, rfl⟩
  have shorter := length_le_separated among
  exact (derived entry.1 (List.fst_mem_of_mem_zipIdx member)).lexemesWith (by omega)

/-- The entries of an object are derived with the extra groups of their values. -/
theorem derives_entriesWith {entries : List (String × Expr)}
    (derived : ∀ entry ∈ entries, DerivedWith limit entry.2)
    (room : d + (separated (Expr.entriesWith extra 0 entries)).length ≤ limit) :
    ∀ part ∈ entries.zipIdx.map fun entry =>
        (entry.1.1, entry.1.2.lexemesWith (below extra entry.2), entry.1.2),
      Derives limit .logical d part.2.1 part.2.2 := by
  rw [List.forall_mem_map]
  intro entry member
  have among : .literal entry.1.1 :: .colon :: entry.1.2.lexemesWith (below extra entry.2) ∈
      Expr.entriesWith extra 0 entries := by
    rw [Expr.entriesWith_eq_map]
    exact List.mem_map.mpr ⟨entry, member, rfl⟩
  have shorter := length_le_separated among
  simp only [List.length_cons] at shorter
  exact (derived entry.1 (List.fst_mem_of_mem_zipIdx member)).lexemesWith (by omega)

/-- Whatever groups are added, the lexemes are derived as the same expression. -/
theorem derivedWith (limit : Nat) (e : Expr) : DerivedWith limit e := by
  induction e using Expr.parts_induction with
  | text value => exact fun extra d room => .text
  | number value => exact fun extra d room => .number (denotes_ofInt64 value)
  | variableName name => exact fun extra d room => .variableName
  | member owner key =>
      intro extra d room
      cases key with
      | name text => exact .memberName
      | index value => exact .memberIndex (denotes_ofInt64 value)
  | call callee arguments induction =>
      intro extra d room
      rw [Expr.bodyWith_call] at room ⊢
      simp only [List.cons_append, List.length_cons, List.length_append] at room
      have inside : d + 1 + (separated (Expr.eachWith extra 0 arguments)).length ≤ limit := by omega
      have derived := @Derives.call limit d callee _ (by omega) (derives_eachWith induction inside)
      simpa [Expr.eachWith_eq_map, Expr.tier, Function.comp_def] using derived
  | array elements induction =>
      intro extra d room
      rw [Expr.bodyWith_array] at room ⊢
      simp only [List.cons_append, List.length_cons, List.length_append] at room
      have inside : d + 1 + (separated (Expr.eachWith extra 0 elements)).length ≤ limit := by omega
      have derived := Derives.array (by omega) (derives_eachWith induction inside)
      simpa [Expr.eachWith_eq_map, Expr.tier, Function.comp_def] using derived
  | object entries induction =>
      intro extra d room
      rw [Expr.bodyWith_object] at room ⊢
      simp only [List.cons_append, List.length_cons, List.length_append] at room
      have inside : d + 1 + (separated (Expr.entriesWith extra 0 entries)).length ≤ limit := by
        omega
      have derived := Derives.object (by omega) (derives_entriesWith induction inside)
      simpa [Expr.entriesWith_eq_map, Expr.tier, entryPart, Function.comp_def] using derived
  | not operand induction =>
      intro extra d room
      rw [Expr.bodyWith_not] at room ⊢
      simp only [List.length_cons] at room
      exact .not (by omega) (induction.operandWith (by decide) (by omega))
  | comparison left operator right leftDerived rightDerived =>
      intro extra d room
      rw [Expr.bodyWith_comparison] at room ⊢
      simp only [List.length_append, List.length_cons] at room
      exact .comparison (leftDerived.operandWith (by decide) (by omega))
        (rightDerived.operandWith (by decide) (by omega))
  | logical left operator right leftDerived rightDerived =>
      intro extra d room
      rw [Expr.bodyWith_logical] at room ⊢
      simp only [List.length_append, List.length_cons] at room
      exact .logical (leftDerived.operandWith (by decide) (by omega)) (by omega)
        (rightDerived.operandWith (by decide) (by omega))

/-! ## Lexemes with extra groups are legible -/

/-- Parentheses can always be written. -/
theorem forall_mem_enclosed {k : Nat} :
    (∀ lexeme ∈ enclosed k ls, lexeme.Legible) ↔ ∀ lexeme ∈ ls, lexeme.Legible := by
  induction k with
  | zero => rw [enclosed_zero]
  | succ k induction => rw [← grouped_enclosed, forall_mem_grouped, induction]

/-- An operand is as legible with its groups as without. -/
theorem forall_mem_operandWith {tier : Tier} {i : Nat} :
    (∀ lexeme ∈ e.operandWith tier extra i, lexeme.Legible) ↔
      ∀ lexeme ∈ e.bodyWith (below extra i), lexeme.Legible :=
  forall_mem_grouped.trans forall_mem_enclosed

/-- Extra groups are legible where the expression is. -/
theorem legible_bodyWith (legible : ∀ lexeme ∈ e.lexemes, lexeme.Legible) :
    ∀ extra, ∀ lexeme ∈ e.bodyWith extra, lexeme.Legible := by
  induction e using Expr.parts_induction with
  | text | number | variableName | member => exact fun _ => legible
  | call callee arguments induction =>
      intro extra
      have closes : Lexeme.closeParen.Legible := trivial
      rw [Expr.lexemes_call, forall_mem_listing closes, List.forall_mem_map] at legible
      rw [Expr.bodyWith_call, forall_mem_listing closes, Expr.eachWith_eq_map, List.forall_mem_map]
      refine ⟨legible.1, fun entry member => forall_mem_enclosed.mpr ?_⟩
      have among := List.fst_mem_of_mem_zipIdx member
      exact induction _ among (legible.2 _ among) _
  | array elements induction =>
      intro extra
      have closes : Lexeme.closeBracket.Legible := trivial
      rw [Expr.lexemes_array, forall_mem_listing closes, List.forall_mem_map] at legible
      rw [Expr.bodyWith_array, forall_mem_listing closes, Expr.eachWith_eq_map,
        List.forall_mem_map]
      refine ⟨legible.1, fun entry member => forall_mem_enclosed.mpr ?_⟩
      have among := List.fst_mem_of_mem_zipIdx member
      exact induction _ among (legible.2 _ among) _
  | object entries induction =>
      intro extra
      have closes : Lexeme.closeBrace.Legible := trivial
      rw [Expr.lexemes_object, forall_mem_listing closes, List.forall_mem_map] at legible
      rw [Expr.bodyWith_object, forall_mem_listing closes, Expr.entriesWith_eq_map,
        List.forall_mem_map]
      refine ⟨legible.1, fun entry member => ?_⟩
      have among := List.fst_mem_of_mem_zipIdx member
      obtain ⟨key, colon, value⟩ : _ ∧ _ ∧ _ := by
        simpa only [List.forall_mem_cons] using legible.2 _ among
      rw [List.forall_mem_cons, List.forall_mem_cons]
      exact ⟨key, colon, forall_mem_enclosed.mpr (induction _ among value _)⟩
  | not operand induction =>
      intro extra
      rw [Expr.lexemes, List.forall_mem_cons, forall_mem_grouped] at legible
      rw [Expr.bodyWith_not, List.forall_mem_cons, forall_mem_operandWith]
      exact ⟨legible.1, induction legible.2 _⟩
  | comparison left operator right leftLegible rightLegible =>
      intro extra
      rw [Expr.lexemes, List.forall_mem_append, List.forall_mem_cons, forall_mem_grouped,
        forall_mem_grouped] at legible
      rw [Expr.bodyWith_comparison, List.forall_mem_append, List.forall_mem_cons,
        forall_mem_operandWith, forall_mem_operandWith]
      exact ⟨leftLegible legible.1 _, legible.2.1, rightLegible legible.2.2 _⟩
  | logical left operator right leftLegible rightLegible =>
      intro extra
      rw [Expr.lexemes, List.forall_mem_append, List.forall_mem_cons, forall_mem_grouped]
        at legible
      rw [Expr.bodyWith_logical, List.forall_mem_append, List.forall_mem_cons,
        forall_mem_operandWith, forall_mem_operandWith]
      exact ⟨leftLegible legible.1 _, legible.2.1, rightLegible legible.2.2 _⟩

/-! ## No extra groups -/

namespace Expr

/-- Without extra groups the parts of a list have their canonical lexemes if each of them has. -/
theorem eachWith_none {list : List Expr} (i : Nat)
    (same : ∀ e ∈ list, e.bodyWith (fun _ => 0) = e.lexemes) :
    eachWith (fun _ => 0) i list = list.map lexemes := by
  induction list generalizing i with
  | nil => rfl
  | cons e rest induction =>
      obtain ⟨own, others⟩ := List.forall_mem_cons.mp same
      rw [eachWith, induction _ others, List.map_cons, enclosed_zero]
      exact congrArg (· :: rest.map lexemes) own

/-- Without extra groups the entries of an object have their canonical lexemes if each of their
values has. -/
theorem entriesWith_none {entries : List (String × Expr)} (i : Nat)
    (same : ∀ entry ∈ entries, entry.2.bodyWith (fun _ => 0) = entry.2.lexemes) :
    entriesWith (fun _ => 0) i entries =
      entries.map fun entry => .literal entry.1 :: .colon :: entry.2.lexemes := by
  induction entries generalizing i with
  | nil => rfl
  | cons entry rest induction =>
      obtain ⟨own, others⟩ := List.forall_mem_cons.mp same
      rw [entriesWith, induction _ others, List.map_cons, enclosed_zero, ← own]
      rfl

/-- Without extra groups there are the canonical lexemes. -/
theorem bodyWith_none (e : Expr) : e.bodyWith (fun _ => 0) = e.lexemes := by
  have same : ∀ i, below (fun _ => 0) i = fun _ => 0 := fun _ => rfl
  induction e using parts_induction with
  | text | number | variableName | member => rfl
  | call callee arguments induction => rw [bodyWith_call, lexemes_call, eachWith_none 0 induction]
  | array elements induction => rw [bodyWith_array, lexemes_array, eachWith_none 0 induction]
  | object entries induction => rw [bodyWith_object, lexemes_object, entriesWith_none 0 induction]
  | not operand induction => simp [bodyWith, lexemes, same, induction]
  | comparison left operator right leftSame rightSame =>
      simp [bodyWith, lexemes, same, leftSame, rightSame]
  | logical left operator right leftSame rightSame =>
      simp [bodyWith, lexemes, same, leftSame, rightSame]

/-- Without extra groups there is the canonical text. -/
theorem renderWith_none (e : Expr) : e.renderWith (fun _ => 0) = e.render := by
  rw [renderWith, lexemesWith, enclosed_zero, bodyWith_none]
  rfl

end Expr

/-! ## Groups around a text -/

/-- No lexeme goes on with a closing parenthesis. -/
theorem Lexeme.absorbs_closeParen (lexeme : Lexeme) : lexeme.absorbs ')' = false := by
  cases lexeme with
  | comparison operator => cases operator <;> rfl
  | connective operator => cases operator <;> rfl
  | _ => rfl

/-- A closing parenthesis behind a text is one more lexeme of it. Proof: by induction on the
reading of the text; no lexeme goes on with the parenthesis. -/
theorem lists_closeParen {cursor other : Cursor} (listed : cursor.reading.Lists ls)
    (text : other.rest = cursor.rest ++ [')']) :
    other.reading.Lists (ls ++ [.closeParen]) := by
  fun_induction Cursor.reading cursor generalizing other ls with
  | case1 cursor value start behind seen induction =>
      obtain ⟨rfl, ends⟩ := listed
      obtain ⟨blanks, own, passes, _, found⟩ := Cursor.look_eq_lexeme_iff.mp seen
      obtain ⟨legible, written, boundary⟩ := scan_found_iff.mp found
      have goesOn : scan (own ++ (behind.rest ++ [')'])) = .found value own := by
        refine scan_found_iff.mpr ⟨legible, written, fun c head => ?_⟩
        cases rest : behind.rest with
        | nil =>
            obtain rfl : ')' = c := by simpa [rest] using head
            by_contra more
            have absorbed := Lexeme.absorbs_of_continues (by simpa using more)
            simp [Lexeme.absorbs_closeParen] at absorbed
        | cons d rest' => exact boundary c (by simpa [rest] using head)
      refine lists_cons (by simp [text, passes.text]) passes.blank goesOn fun next rest => ?_
      exact induction ⟨rfl, ends⟩ rest
  | case2 cursor behind seen =>
      obtain ⟨rfl, _⟩ := listed
      obtain ⟨blanks, passes, finished⟩ := Cursor.of_look_eq_ending seen
      have found : scan ([')'] ++ []) = .found .closeParen [')'] := rfl
      refine lists_cons (by simp [text, passes.text, finished]) passes.blank found ?_
      exact fun next rest => lists_nil (by simp [rest])
  | case3 cursor stopped seen =>
      obtain ⟨_, _, ends⟩ := listed
      cases ends

/-- A text between parentheses consists of its lexemes between parentheses. -/
theorem lists_enclosed {text : List Char} (listed : (Cursor.ofList text).reading.Lists ls)
    (k : Nat) : (Cursor.ofList
      (List.replicate k '(' ++ text ++ List.replicate k ')')).reading.Lists (enclosed k ls) := by
  induction k with
  | zero => simpa using listed
  | succ k induction =>
      have found : ∀ rest, scan (['('] ++ rest) = .found .openParen ['('] := fun rest =>
        scan_found_iff.mpr ⟨trivial, rfl, fun _ _ => rfl⟩
      have split : List.replicate (k + 1) '(' ++ text ++ List.replicate (k + 1) ')' =
          [] ++ (['('] ++ ((List.replicate k '(' ++ text ++ List.replicate k ')') ++ [')'])) := by
        rw [List.replicate_succ, List.replicate_succ']
        simp
      rw [enclosed_succ]
      exact lists_cons split (by simp) (found _) fun next rest => lists_closeParen induction rest

/-! ## Extra groups are transparent -/

/-- A source between parentheses, `k` on either side. -/
def inParens (k : Nat) (source : String) : String :=
  String.ofList (List.replicate k '(' ++ source.toList ++ List.replicate k ')')

/-- For a derivation only the room between its level and the limit matters. -/
theorem Derives.of_room {tier : Tier} (derivation : Derives limit tier d ls e) {d' limit' : Nat}
    (room : d' + limit ≤ d + limit') : Derives limit' tier d' ls e := by
  induction derivation generalizing d' with
  | ofComparison _ induction => exact .ofComparison (induction room)
  | logical _ within _ left right =>
      exact .logical (left room) (by omega) (right (by omega))
  | ofUnary _ induction => exact .ofUnary (induction room)
  | comparison _ _ left right => exact .comparison (left room) (right room)
  | not within _ induction => exact .not (by omega) (induction (by omega))
  | ofPrimary _ induction => exact .ofPrimary (induction room)
  | group within _ induction => exact .group (by omega) (induction (by omega))
  | variableName => exact .variableName
  | memberName => exact .memberName
  | memberIndex denotes => exact .memberIndex denotes
  | call within _ induction =>
      exact .call (by omega) fun part member => induction part member (by omega)
  | array within _ induction =>
      exact .array (by omega) fun part member => induction part member (by omega)
  | object within _ induction =>
      exact .object (by omega) fun entry member => induction entry member (by omega)
  | text => exact .text
  | number denotes => exact .number denotes

/-- A text between parentheses is read as nothing else. -/
theorem parse_inParens {source : String} {other : Expr} (parsed : Expr.parse source = .ok e)
    {k : Nat} (parsedToo : Expr.parse (inParens k source) = .ok other) : other = e := by
  obtain ⟨ls, consists, derivation⟩ := (parse_eq_ok_iff _ _).mp parsed
  obtain ⟨us, consistsToo, derivationToo⟩ := (parse_eq_ok_iff _ _).mp parsedToo
  have listed : (Reading.ofText (inParens k source)).Lists (enclosed k ls) := by
    rw [Reading.ofText, inParens, String.toList_ofList]
    exact lists_enclosed ((consistsOf_iff_lists _ _).mp consists) k
  obtain rfl := consistsToo.unique ((consistsOf_iff_lists _ _).mpr listed)
  have derived : ∀ d, d + maxDepth ≤ k + maxDepth → Derives (k + maxDepth) .logical d ls e :=
    fun d room => derivation.of_room (by omega)
  have derivedAgain := derives_enclosed derived k (by omega : 0 + k + maxDepth ≤ k + maxDepth)
  obtain ⟨entries, same, _, leveled⟩ := derives_iff_leveled.mp derivedAgain
  obtain ⟨others, sameToo, _, leveledToo⟩ := derives_iff_leveled.mp derivationToo
  exact (leveled.unique leveledToo (sameToo.trans same.symm)).2

/-- Extra groups are transparent. Whatever expression is read from its canonical text, with any
number of groups around each part the text is read as the same expression if the levels that it
opens are within 128; otherwise it is refused. And a source between any number of parentheses
is read as the expression that the source is read as, if it is read at all. -/
theorem extra_groups_are_transparent {e : Expr} (reads : Expr.ofString e.render = .ok e) :
    (∀ extra : List Nat → Nat, ∃ entries : List LeveledLexeme,
      entries.map Prod.fst = e.lexemesWith extra ∧ Leveled .logical 0 entries e ∧
      (∀ others other, others.map Prod.fst = e.lexemesWith extra →
        Leveled .logical 0 others other → others = entries ∧ other = e) ∧
      (LevelsWithin 128 entries → Expr.ofString (e.renderWith extra) = .ok e) ∧
      (¬ LevelsWithin 128 entries → ∃ c position,
        Expr.ofString (e.renderWith extra) = .error (.parse ⟨.unexpectedChar c, position⟩))) ∧
    e.renderWith (fun _ => 0) = e.render ∧
    ∀ source n k other, Expr.parse source = .ok n → Expr.parse (inParens k source) = .ok other →
      other = n := by
  refine ⟨fun extra => ?_, e.renderWith_none, fun _ _ _ _ parsed => parse_inParens parsed⟩
  rw [ofString_eq_ok_iff] at reads
  have visible := ((exists_parse_iff e).mp ⟨_, reads⟩).1
  have legible : ∀ lexeme ∈ e.lexemesWith extra, lexeme.Legible :=
    forall_mem_enclosed.mpr (legible_bodyWith visible extra)
  have derivation : Derives (0 + (e.lexemesWith extra).length) .logical 0 (e.lexemesWith extra) e :=
    (derivedWith _ e).lexemesWith (Nat.le_refl _)
  have consists := consistsOf_spacedText legible derivation.isChain
  obtain ⟨entries, same, _, leveled⟩ := derives_iff_leveled.mp derivation
  refine ⟨entries, same, leveled, ?_, ?_, ?_⟩
  · exact fun others other equal also => leveled.unique also (equal.trans same.symm)
  · intro within
    exact (ofString_eq_ok_iff _ _).mpr
      ((parse_eq_ok_iff _ _).mpr ⟨_, consists, same ▸ leveled.derives within⟩)
  · intro excess
    have listed := (consistsOf_iff_lists _ _).mp consists
    obtain ⟨_, value, _, start, _, _, _, refused⟩ := parse_of_excess (same ▸ listed) leveled excess
    refine ⟨value.leadChar, start, ?_⟩
    rw [Expr.ofString, Expr.renderWith, ← same, refused]
    rfl

/-- A group around a number in a group changes nothing. A group around 128 negations, each of which
opens a level, has them refused. -/
theorem extra_groups_around_number_and_negations :
    (Expr.ofString "!(1 == 2)" = .ok (.not (.comparison (.number 1) .equal (.number 2))) ∧
      Expr.ofString "!(1 == ((2)))" = .ok (.not (.comparison (.number 1) .equal (.number 2)))) ∧
    let deep := negated 128 (.number 1)
    Expr.ofString deep.render = .ok deep ∧
      ∃ c position, Expr.ofString (inParens 1 deep.render) =
        .error (.parse ⟨.unexpectedChar c, position⟩) := by
  have one := leveled_number (show Decimal.toInt64? "1" = some 1 by decide +kernel)
  constructor
  · have reads : Expr.ofString
        (Expr.not (.comparison (.number 1) .equal (.number 2))).render =
          .ok (.not (.comparison (.number 1) .equal (.number 2))) := by decide +kernel
    have written : (Expr.not (.comparison (.number 1) .equal (.number 2))).renderWith
        (fun path => if path = [0, 1] then 2 else 0) = "!(1 == ((2)))" := by decide +kernel
    obtain ⟨transparent, _⟩ := extra_groups_are_transparent reads
    obtain ⟨entries, _, _, unique, parsed, _⟩ :=
      transparent fun path => if path = [0, 1] then 2 else 0
    have two := leveled_number (show Decimal.toInt64? "2" = some 2 by decide +kernel) 4
    have grouped := Leveled.group (.ofComparison (.ofUnary (.ofPrimary (.group
      (.ofComparison (.ofUnary two))))))
    have compared := Leveled.group (.ofComparison
      (@Leveled.comparison 2 _ _ _ _ .equal (one 2) (.ofPrimary grouped)))
    obtain ⟨rfl, _⟩ := unique _ _ rfl (.ofComparison (.ofUnary (.not (.ofPrimary compared))))
    rw [written] at parsed
    exact ⟨reads, parsed (by simp)⟩
  · intro deep
    have reads : Expr.ofString deep.render = .ok deep := by decide +kernel
    have written : deep.renderWith (fun path => if path = [] then 1 else 0) =
        inParens 1 deep.render := by decide +kernel
    obtain ⟨transparent, _⟩ := extra_groups_are_transparent reads
    obtain ⟨entries, _, _, unique, _, refused⟩ :=
      transparent fun path => if path = [] then 1 else 0
    have inside : Leveled .logical 1 (negationsFrom 1 128 ++ [(.number "1", none)]) deep :=
      .ofComparison (.ofUnary (leveled_negated (one 129)))
    obtain ⟨rfl, _⟩ := unique _ _ (by decide +kernel)
      (.ofComparison (.ofUnary (.ofPrimary (.group inside))))
    rw [written] at refused
    exact ⟨reads, refused (by decide +kernel)⟩

end EdgeExpression
