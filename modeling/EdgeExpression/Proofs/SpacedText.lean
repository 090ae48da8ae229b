import EdgeExpression.Proofs.Recognition
import Mathlib.Data.List.Chain
import Mathlib.Data.List.TakeWhile

/-!
# Spaced text

Lexemes are written one behind the other, each with its spacing. Such a text consists
of exactly these lexemes, unless two neighbours run into one: two numerals in a row
would be one numeral, and the quotes of two literals would meet.

The grammar keeps such neighbours apart. Where an operand may end no operand may
begin, which is seen from the steps of a reading: every lexeme that can end an operand
leaves the reading where no operand is due.
-/
namespace EdgeExpression

namespace Lexeme

/-- The lexemes that may be the last one of an operand, or its only one. -/
def endsOperand : Lexeme → Bool
  | .literal _ | .number _ | .variable _ | .closeParen | .closeBracket | .closeBrace => true
  | _ => false

/-- The lexemes that may be the first one of an operand. -/
def beginsOperand : Lexeme → Bool
  | .literal _ | .number _ | .variable _ | .member _ | .call _ | .openParen | .openBracket
  | .openBrace | .not => true
  | _ => false

/-- One lexeme may follow another unless an operand would end and begin there. -/
def Apart (lexeme following : Lexeme) : Prop :=
  lexeme.endsOperand = true → following.beginsOperand = false

end Lexeme

/-! ## Neighbours in the grammar -/

namespace Progress

/-- Whether something is due that begins with an operand's first lexeme. -/
def operandDue : Progress → Bool
  | .operand _ | .entry _ _ | .memberKey _ _ => true
  | _ => false

variable {limit : Nat} {progress following : Progress} {lexeme : Lexeme}

/-- Behind a complete operand none is due. -/
theorem operandDue_complete (e : Expr) (frames : List Frame) :
    (complete e frames).operandDue = false := by
  fun_induction complete e frames with
  | case1 e frames induction => exact induction
  | case2 => rfl

/-- A lexeme that begins an operand is refused unless one is due. -/
theorem operandDue_of_begins (taken : progress.step limit lexeme = .next following)
    (begins : lexeme.beginsOperand = true) : progress.operandDue = true := by
  cases progress with
  | operand | entry | memberKey => rfl
  | after e frames =>
      cases lexeme <;> simp [Lexeme.beginsOperand] at begins <;>
        simp [step, endOperand, endPart] at taken
  | colon | memberBrace | memberParen =>
      cases lexeme <;> simp [Lexeme.beginsOperand] at begins <;> simp [step] at taken

/-- An operand of one lexeme, or an empty list, is complete behind its last lexeme. -/
theorem operandDue_of_beginOperand {frames : List Frame}
    (taken : beginOperand limit frames lexeme = .next following)
    (ends : lexeme.endsOperand = true) : following.operandDue = false := by
  cases lexeme with
  | literal | «variable» =>
      obtain rfl := Verdict.next.inj taken
      exact operandDue_complete _ _
  | number =>
      obtain ⟨v, _, rfl⟩ := of_numeral_eq_next taken
      exact operandDue_complete _ _
  | closeParen | closeBracket =>
      simp only [beginOperand] at taken
      split at taken
      · obtain rfl := Verdict.next.inj taken
        exact operandDue_complete _ _
      · cases taken
  | closeBrace => cases taken
  | _ => cases ends

/-- What a closing lexeme completes is an operand. -/
theorem operandDue_of_endOperand {e : Expr} {frames : List Frame}
    (taken : endOperand limit e frames lexeme = .next following)
    (ends : lexeme.endsOperand = true) : following.operandDue = false := by
  unfold endOperand at taken
  split at taken
  case h_1 => cases ends
  case h_2 => cases ends
  case h_3 =>
    unfold endPart at taken
    split at taken
    case h_5 | h_6 | h_7 => cases ends
    case h_8 => cases taken
    all_goals
      obtain rfl := Verdict.next.inj taken
      exact operandDue_complete _ _

/-- Behind a lexeme that ends an operand no operand is due. -/
theorem operandDue_of_ends (taken : progress.step limit lexeme = .next following)
    (ends : lexeme.endsOperand = true) : following.operandDue = false := by
  unfold step at taken
  split at taken
  case h_1 => exact operandDue_of_beginOperand taken ends
  case h_2 => exact operandDue_of_endOperand taken ends
  case h_5 => cases ends
  case h_7 =>
    obtain ⟨v, _, rfl⟩ := of_numeral_eq_next taken
    rfl
  case h_10 => cases taken
  all_goals
    obtain rfl := Verdict.next.inj taken
    first | rfl | exact operandDue_complete _ _

/-- Two lexemes that take their steps one after the other are apart. -/
theorem apart_of_steps {first second : Lexeme} {between : Progress}
    (taken : progress.step limit first = .next between)
    (behind : between.step limit second = .next following) : first.Apart second := by
  intro ends
  by_contra begins
  have missing := operandDue_of_ends taken ends
  have present := operandDue_of_begins behind (by simpa using begins)
  simp [missing] at present

/-- What holds of every two lexemes that take their steps one after the other holds all along. -/
theorem isChain_of_feed {relation : Lexeme → Lexeme → Prop} {ls : List Lexeme}
    (steps : ∀ {progress between following : Progress} {first second : Lexeme},
      progress.step limit first = .next between → between.step limit second = .next following →
      relation first second)
    (fed : progress.feed limit ls = some following) : ls.IsChain relation := by
  induction ls generalizing progress with
  | nil => exact .nil
  | cons first rest induction =>
      unfold feed at fed
      split at fed
      · next between taken =>
          refine List.isChain_cons.mpr ⟨?_, induction fed⟩
          intro second head
          obtain ⟨others, rfl⟩ := List.head?_eq_some_iff.mp head
          unfold feed at fed
          split at fed
          · next behind => exact steps taken behind
          · cases fed
      · cases fed

end Progress

namespace Derives

variable {limit : Nat} {ls : List Lexeme} {e : Expr}

/-- What holds of lexemes that take their steps one after the other holds all along a derivation,
since it is read. -/
theorem isChain_of_steps {relation : Lexeme → Lexeme → Prop}
    (derivation : Derives limit .logical 0 ls e)
    (steps : ∀ {progress between following : Progress} {first second : Lexeme},
      progress.step limit first = .next between → between.step limit second = .next following →
      relation first second) : ls.IsChain relation := by
  obtain ⟨last, inner, fed, _⟩ := Progress.read_of_derives derivation [] rfl trivial
  exact Progress.isChain_of_feed steps fed

/-- The lexemes that the grammar derives are apart. -/
theorem isChain (derivation : Derives limit .logical 0 ls e) : ls.IsChain Lexeme.Apart :=
  derivation.isChain_of_steps Progress.apart_of_steps

end Derives

/-! ## Spacing -/

namespace Lexeme

/-- The space in front of a lexeme. -/
def spaceBefore : Lexeme → List Char
  | .comparison _ | .connective _ => [' ']
  | _ => []

/-- The space behind a lexeme. -/
def spaceBehind : Lexeme → List Char
  | .comma | .colon | .comparison _ | .connective _ => [' ']
  | _ => []

/-- A lexeme is written between the spaces on either side of it. -/
theorem spaced_eq (lexeme : Lexeme) :
    lexeme.spaced = lexeme.spaceBefore ++ (lexeme.spelling ++ lexeme.spaceBehind) := by
  cases lexeme with
  | comparison operator => simp [spaced, spaceBefore, spelling, cargo, spaceBehind]
  | connective operator => simp [spaced, spaceBefore, spelling, cargo, spaceBehind]
  | comma | colon => rfl
  | _ => simp [spaced, spaceBefore, spaceBehind]

/-- The space in front of a lexeme is blank. -/
theorem isBlank_of_mem_spaceBefore {lexeme : Lexeme} :
    ∀ c ∈ lexeme.spaceBefore, isBlank c = true := by
  cases lexeme <;> simp [spaceBefore, isBlank]

/-- The space behind a lexeme is blank. -/
theorem isBlank_of_mem_spaceBehind {lexeme : Lexeme} :
    ∀ c ∈ lexeme.spaceBehind, isBlank c = true := by
  cases lexeme <;> simp [spaceBehind, isBlank]

end Lexeme

namespace Lexeme

/-- Only a numeral is shown with a digit in front, only a literal with a quote, and
nothing with an equals sign. -/
theorem first_of_spaced {lexeme : Lexeme} (legible : lexeme.Legible) {c : Char}
    (first : c ∈ lexeme.spaced.head?) :
    c ≠ '=' ∧ (c.isDigit = true → ∃ numeral, lexeme = .number numeral) ∧
      (isQuote c = true → ∃ text, lexeme = .literal text) := by
  cases lexeme with
  | literal text =>
      have quote : (quoted text.toList).head? = some '\'' := by
        unfold quoted
        split <;> rfl
      obtain rfl : '\'' = c := by simpa [spaced, spelling, quote] using first
      simp
  | number numeral =>
      obtain ⟨sign, digits, split, signed, nonempty, all⟩ := legible
      have shape : c = '-' ∨ c.isDigit = true := by
        simp only [spaced, spelling, cargo, split] at first
        rcases signed with rfl | rfl
        · exact .inr (all c (List.mem_of_head? first))
        · exact .inl (Option.some.inj first).symm
      have other : ∀ d : Char, d ≠ '-' → d.isDigit = false → c ≠ d := by
        rintro d notMinus notDigit rfl
        simp [notMinus, notDigit] at shape
      refine ⟨other '=' (by decide) (by decide), fun _ => ⟨numeral, rfl⟩, fun quote => ?_⟩
      exact absurd (by simpa [isQuote] using quote) (other '\'' (by decide) (by decide))
  | _ =>
      simp [spaced, spelling, cargo, negationSymbol] at first
      subst first
      simp [isQuote]

/-- A scan finds nothing in an empty text, so every legible lexeme has a spelling. -/
theorem Legible.spelling_ne_nil {lexeme : Lexeme} (legible : lexeme.Legible) :
    lexeme.spelling ≠ [] := by
  intro empty
  have found := scan_spelling lexeme [] legible (by simp)
  simp [empty, scan] at found

/-- Something is written of a lexeme that can be written. -/
theorem Legible.spaced_ne_nil {lexeme : Lexeme} (legible : lexeme.Legible) :
    lexeme.spaced ≠ [] := by
  simp [spaced_eq, legible.spelling_ne_nil]

/-- What a lexeme would absorb does not follow it, if it is apart from what does. -/
theorem absorbs_of_apart {lexeme following : Lexeme} (apart : Apart lexeme following)
    (alone : lexeme.spaceBehind = []) (legible : following.Legible) {c : Char}
    (first : c ∈ following.spaced.head?) : lexeme.absorbs c = false := by
  obtain ⟨notEquals, number, literal⟩ := first_of_spaced legible first
  cases lexeme with
  | number numeral =>
      by_contra absorbed
      obtain ⟨next, rfl⟩ := number (by simpa [absorbs] using absorbed)
      exact absurd (apart rfl) (by simp [beginsOperand])
  | literal text =>
      by_contra absorbed
      obtain ⟨next, rfl⟩ := literal (by simpa [absorbs] using absorbed)
      exact absurd (apart rfl) (by simp [beginsOperand])
  | not => simpa [absorbs] using notEquals
  | comparison | connective => simp [spaceBehind] at alone
  | _ => rfl

end Lexeme

/-! ## Spaced text is read back -/

/-- The text of lexemes, each with its spacing. -/
def spacedText (ls : List Lexeme) : String := String.ofList (ls.flatMap Lexeme.spaced)

/-- The text of lexemes begins with that of the first one. -/
theorem spacedText_cons (lexeme : Lexeme) (rest : List Lexeme) :
    spacedText (lexeme :: rest) = String.ofList lexeme.spaced ++ spacedText rest := by
  simp [spacedText]

/-- The text of lexemes behind each other is that of either side. -/
theorem spacedText_append (first second : List Lexeme) :
    spacedText (first ++ second) = spacedText first ++ spacedText second := by
  simp [spacedText]

/-- Behind blanks alone the end is seen. -/
theorem Cursor.look_of_blanks {cursor : Cursor} (blank : ∀ c ∈ cursor.rest, isBlank c = true) :
    cursor.look = .ending (cursor.skip isBlank) := by
  have skipped : (cursor.skip isBlank).rest = [] := by
    rw [rest_skip]
    exact List.dropWhile_eq_nil_iff.mpr blank
  rw [look, lookHere, skipped]
  rfl

/-- Blanks alone list no lexeme. -/
theorem lists_nil {cursor : Cursor} (blank : ∀ c ∈ cursor.rest, isBlank c = true) :
    cursor.reading.Lists [] := by
  rw [Cursor.reading_of_ending (Cursor.look_of_blanks blank)]
  exact ⟨rfl, _, rfl⟩

/-- In front of blanks and a text that is scanned as a lexeme, a reading lists the lexeme, if
it lists what follows. -/
theorem lists_cons {cursor : Cursor} {lexeme : Lexeme} {blanks own rest : List Char}
    {ls : List Lexeme} (text : cursor.rest = blanks ++ (own ++ rest))
    (blank : ∀ c ∈ blanks, isBlank c = true) (found : scan (own ++ rest) = .found lexeme own)
    (behind : ∀ next : Cursor, next.rest = rest → next.reading.Lists ls) :
    cursor.reading.Lists (lexeme :: ls) := by
  have seen : cursor.look = .lexeme lexeme (cursor.position.past blanks)
      ⟨(cursor.position.past blanks).past own, rest⟩ :=
    Cursor.look_eq_lexeme_iff.mpr ⟨blanks, own, ⟨text, blank, rfl⟩, rfl, found⟩
  obtain ⟨listed, ends⟩ := behind ⟨(cursor.position.past blanks).past own, rest⟩ rfl
  rw [Cursor.reading_of_lexeme seen]
  exact ⟨congrArg (List.cons lexeme) listed, ends⟩

/-- No lexeme absorbs the first character of the text behind it. -/
theorem absorbs_behind {lexeme : Lexeme} {rest : List Lexeme}
    (neighbour : ∀ following ∈ rest.head?, lexeme.Apart following)
    (legible : ∀ following ∈ rest, following.Legible) :
    ∀ c ∈ (lexeme.spaceBehind ++ rest.flatMap Lexeme.spaced).head?, lexeme.absorbs c = false := by
  intro c head
  cases space : lexeme.spaceBehind with
  | cons first spaces =>
      rw [space] at head
      have member : c ∈ lexeme.spaceBehind := by
        rw [space, ← Option.some.inj head]
        exact List.mem_cons_self
      exact lexeme.absorbs_of_isBlank (Lexeme.isBlank_of_mem_spaceBehind c member)
  | nil =>
      rw [space, List.nil_append] at head
      cases rest with
      | nil => cases head
      | cons following rest =>
          have visible := legible following List.mem_cons_self
          rw [List.flatMap_cons, List.head?_append_of_ne_nil _ visible.spaced_ne_nil] at head
          exact Lexeme.absorbs_of_apart (neighbour following rfl) space visible head

/-- Legible lexemes that are apart are listed from where they are written down, behind
any blanks. -/
theorem lists_spaced {ls : List Lexeme} (legible : ∀ lexeme ∈ ls, lexeme.Legible)
    (apart : ls.IsChain Lexeme.Apart) {cursor : Cursor} {blanks : List Char}
    (text : cursor.rest = blanks ++ ls.flatMap Lexeme.spaced)
    (blank : ∀ c ∈ blanks, isBlank c = true) : cursor.reading.Lists ls := by
  induction ls generalizing cursor blanks with
  | nil => exact lists_nil (by simpa [text] using blank)
  | cons lexeme rest induction =>
      obtain ⟨own, others⟩ := List.forall_mem_cons.mp legible
      obtain ⟨neighbour, chain⟩ := List.isChain_cons.mp apart
      have split : cursor.rest = (blanks ++ lexeme.spaceBefore) ++
          (lexeme.spelling ++ (lexeme.spaceBehind ++ rest.flatMap Lexeme.spaced)) := by
        simp [text, Lexeme.spaced_eq]
      have blanksBefore : ∀ c ∈ blanks ++ lexeme.spaceBefore, isBlank c = true :=
        List.forall_mem_append.mpr ⟨blank, Lexeme.isBlank_of_mem_spaceBefore⟩
      have found := scan_spelling lexeme _ own (absorbs_behind neighbour others)
      refine lists_cons split blanksBefore found ?_
      intro next behind
      exact induction others chain behind Lexeme.isBlank_of_mem_spaceBehind

/-- The text of legible lexemes that are apart consists of these lexemes. -/
theorem consistsOf_spacedText {ls : List Lexeme} (legible : ∀ lexeme ∈ ls, lexeme.Legible)
    (apart : ls.IsChain Lexeme.Apart) : ConsistsOf (spacedText ls) ls := by
  have text : (Cursor.ofList (spacedText ls).toList).rest = [] ++ ls.flatMap Lexeme.spaced :=
    String.toList_ofList
  exact (consistsOf_iff_lists _ _).mpr (lists_spaced legible apart text (by simp))

end EdgeExpression
