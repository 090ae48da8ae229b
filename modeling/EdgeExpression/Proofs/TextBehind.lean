import EdgeExpression.Proofs.ExcessLevel
import EdgeExpression.Proofs.LongestMatch

/-!
# Text behind an error

Parsing stops at the first error, so a text that goes on behind the error should fail in the same
way. It does, if what is added begins with a blank and the error is no early end: a character that
is refused stays refused, by the lexemes as well as by the parser.

There is one exception. Behind a numeral out of range one more token is pulled before the numeral
is reported. Where the numeral was the last token, that token comes from the text that was added;
and if it cannot be read, this is reported and the numeral is not.
-/
namespace EdgeExpression

/-! ## Reading a text that goes on -/

namespace Cursor

variable {cursor : Cursor}

/-- A cursor in a text that goes on behind its end. -/
def extend (cursor : Cursor) (more : List Char) : Cursor := ⟨cursor.position, cursor.rest ++ more⟩

/-- The lexemes in front of the end or of a fault are read in the same way if the text goes on
with a blank. What is added is read behind them. -/
theorem exists_reading_extend (cursor : Cursor) {more : List Char}
    (blank : ∀ c ∈ more.head?, isBlank c = true) :
    ∃ last : Cursor, last.reading = ⟨[], cursor.reading.outcome⟩ ∧
      (cursor.extend more).reading =
        ⟨cursor.reading.lexemes ++ (last.extend more).reading.lexemes,
          (last.extend more).reading.outcome⟩ := by
  obtain ⟨passed, last, cut, none⟩ := exists_cut (List.append_nil cursor.reading.lexemes).symm
  have outcome : cursor.reading.outcome = last.reading.outcome := by rw [cut.reading]
  refine ⟨last, by rw [outcome, ← none], ?_⟩
  have alike : ∀ c ∈ (last.rest ++ more).head?, c ∈ last.rest.head? ∨ isBlank c = true := by
    cases last.rest with
    | nil => exact fun c head => .inr (blank c head)
    | cons => exact fun c head => .inl head
  rw [extend, cut.text, List.append_assoc]
  exact cut.exchange _ alike

/-- Blanks in front of a text do not change what is read. -/
theorem reading_blanks {blanks : List Char} (blank : ∀ c ∈ blanks, isBlank c = true)
    (start : Position) (more : List Char) :
    (⟨start, blanks ++ more⟩ : Cursor).reading = (⟨start.past blanks, more⟩ : Cursor).reading := by
  have skipped : (⟨start, blanks ++ more⟩ : Cursor).skip isBlank =
      (⟨start.past blanks, more⟩ : Cursor).skip isBlank := by
    rw [skip_eq, skip_eq, List.takeWhile_append_of_pos blank, List.dropWhile_append_of_pos blank,
      Position.past_append]
  rw [← reading_skip, skipped, reading_skip]

/-- Where the end was read, there were blanks at most. -/
theorem blanks_of_reading_ending {ending : Position} (ends : cursor.reading = ⟨[], .ok ending⟩) :
    (∀ c ∈ cursor.rest, isBlank c = true) ∧ ending = cursor.position.past cursor.rest := by
  cases seen : cursor.look with
  | lexeme => simp [reading_of_lexeme seen] at ends
  | fault => simp [reading_of_fault seen] at ends
  | ending behind =>
      obtain ⟨blanks, passes, finished⟩ := of_look_eq_ending seen
      have rest : cursor.rest = blanks := by rw [passes.text, finished]; simp
      rw [reading_of_ending seen, passes.position] at ends
      obtain ⟨_, same⟩ := Reading.mk.inj ends
      rw [rest]
      exact ⟨passes.blank, (Except.ok.inj same).symm⟩

/-- Where a character cannot be read, a scan is stuck in front of it. -/
theorem exists_stuck_of_reading {c : Char} {place : Position}
    (faulty : cursor.reading = ⟨[], .error ⟨.unexpectedChar c, place⟩⟩) :
    ∃ blanks read rest, cursor.Reaches blanks read ⟨place, c :: rest⟩ ∧
      scan (read ++ c :: rest) = .stuck read := by
  obtain ⟨read, ⟨position, rest⟩, reaches, scanned⟩ := cursor.exists_reaches
  have seen := reaches.look_eq scanned
  cases found : scan (read ++ rest) with
  | found value own => simp [reading_of_lexeme (found ▸ seen)] at faulty
  | stuck own =>
      obtain rfl : own = read := by rw [← scanned, found]; rfl
      simp only [found] at seen
      split at seen
      · simp [reading_of_ending seen] at faulty
      · rw [reading_of_fault seen] at faulty
        cases rest with
        | nil => simp [LexError.stoppedAt] at faulty
        | cons d rest =>
            obtain ⟨rfl, rfl⟩ : d = c ∧ position = place := by
              simpa [LexError.stoppedAt] using faulty
            exact ⟨_, own, rest, reaches, found⟩

/-- Where a lexeme gets stuck, the reading is empty and blames the character there. -/
theorem reading_of_stuck {c : Char} {place : Position} {blanks read rest : List Char}
    (reaches : cursor.Reaches blanks read ⟨place, c :: rest⟩)
    (stuck : scan (read ++ c :: rest) = .stuck read) :
    cursor.reading = ⟨[], .error ⟨.unexpectedChar c, place⟩⟩ := by
  have seen : cursor.look = .fault ⟨place, c :: rest⟩ := by
    rw [reaches.look_eq (by rw [stuck]; rfl), stuck]
    simp
  rw [reading_of_fault seen]
  rfl

/-- In front of a character the same is passed if the text goes on. -/
theorem Reaches.extend {c : Char} {place : Position} {blanks own rest : List Char}
    (reaches : cursor.Reaches blanks own ⟨place, c :: rest⟩) (more : List Char) :
    (cursor.extend more).Reaches blanks own ⟨place, c :: (rest ++ more)⟩ where
  text := by simp [Cursor.extend, reaches.text]
  blank := reaches.blank
  position := reaches.position
  maximal := by
    have first := reaches.maximal
    cases own <;> exact first

/-- A character that cannot be read still cannot if the text goes on, since nothing behind it
was looked at. -/
theorem reading_extend_of_unexpectedChar {c : Char} {place : Position}
    (faulty : cursor.reading = ⟨[], .error ⟨.unexpectedChar c, place⟩⟩) (more : List Char) :
    (cursor.extend more).reading = ⟨[], .error ⟨.unexpectedChar c, place⟩⟩ := by
  obtain ⟨blanks, read, rest, reaches, stuck⟩ := exists_stuck_of_reading faulty
  exact reading_of_stuck (reaches.extend more) (scan_stuck_exchange stuck)

/-- Behind the end of a text, what is added is read where the text ended. -/
theorem reading_extend_of_ending {ending : Position} (ends : cursor.reading = ⟨[], .ok ending⟩)
    (more : List Char) : (cursor.extend more).reading = (⟨ending, more⟩ : Cursor).reading := by
  obtain ⟨blank, rfl⟩ := blanks_of_reading_ending ends
  exact reading_blanks blank cursor.position more

end Cursor

namespace Reading

variable {source added : String}

/-- A text with a character that cannot be read reads as before if it goes on with a blank. -/
theorem ofText_append_of_unexpectedChar {c : Char} {place : Position}
    (blank : ∀ c ∈ added.toList.head?, isBlank c = true)
    (faulty : (ofText source).outcome = .error ⟨.unexpectedChar c, place⟩) :
    ofText (source ++ added) = ofText source := by
  obtain ⟨last, stops, reading⟩ := (Cursor.ofList source.toList).exists_reading_extend blank
  have still := Cursor.reading_extend_of_unexpectedChar (stops.trans (congrArg _ faulty))
    added.toList
  rw [ofText, String.toList_append]
  rw [still, List.append_nil] at reading
  exact reading.trans (congrArg (Reading.mk _) faulty.symm)

/-- A text that is read to its end reads on behind it. -/
theorem ofText_append_of_ending {ending : Position}
    (blank : ∀ c ∈ added.toList.head?, isBlank c = true)
    (ends : (ofText source).outcome = .ok ending) :
    ofText (source ++ added) =
      ⟨(ofText source).lexemes ++ (⟨ending, added.toList⟩ : Cursor).reading.lexemes,
        (⟨ending, added.toList⟩ : Cursor).reading.outcome⟩ := by
  obtain ⟨last, stops, reading⟩ := (Cursor.ofList source.toList).exists_reading_extend blank
  have behind := Cursor.reading_extend_of_ending (stops.trans (congrArg _ ends)) added.toList
  rw [ofText, String.toList_append, ← behind]
  exact reading

/-- The lexemes of a text are those that it begins with if it goes on with a blank. -/
theorem exists_lexemes_append (source : String)
    (blank : ∀ c ∈ added.toList.head?, isBlank c = true) :
    ∃ later, (ofText (source ++ added)).lexemes = (ofText source).lexemes ++ later := by
  obtain ⟨last, _, reading⟩ := (Cursor.ofList source.toList).exists_reading_extend blank
  rw [ofText, String.toList_append]
  exact ⟨_, congrArg Reading.lexemes reading⟩

/-- A numeral that is read stands in the text at its place, and what is read behind it is what
the text behind it reads as. -/
theorem exists_numeral {before behind : List (Lexeme × Position)} {numeral : String}
    {start : Position}
    (split : (ofText source).lexemes = before ++ (.number numeral, start) :: behind) :
    ∃ (front : List Char) (next : Cursor), source.toList = front ++ (numeral.toList ++ next.rest) ∧
      Position.origin.past front = start ∧ next.reading = ⟨behind, (ofText source).outcome⟩ := by
  obtain ⟨passed, here, cut, left⟩ := Cursor.exists_cut split
  have outcome : (ofText source).outcome = here.reading.outcome := by rw [ofText, cut.reading]
  cases seen : here.look with
  | ending => simp [Cursor.reading_of_ending seen] at left
  | fault => simp [Cursor.reading_of_fault seen] at left
  | lexeme value place next =>
      obtain ⟨blanks, own, passes, begins, found⟩ := Cursor.look_eq_lexeme_iff.mp seen
      rw [Cursor.reading_of_lexeme seen] at left outcome
      obtain ⟨first, rfl⟩ := List.cons.inj left
      obtain ⟨rfl, rfl⟩ := Prod.mk.inj first
      obtain rfl : own = numeral.toList := scan_found_written found
      have text : source.toList = passed ++ here.rest := cut.text
      have position : here.position = Position.origin.past passed := cut.position
      refine ⟨passed ++ blanks, next, ?_, ?_, ?_⟩
      · rw [text, passes.text, List.append_assoc]
      · rw [begins, position, Position.past_append]
      · rw [outcome]

end Reading

/-- Behind another text a text begins with a fault exactly if its own first token is one. -/
theorem Cursor.reading_eq_fault_iff (start : Position) (text : String) (error : LexError) :
    (⟨start, text.toList⟩ : Cursor).reading = ⟨[], .error error⟩ ↔
      ∃ inner, (TokenStream.ofText text false).pull.1 = .error inner ∧
        error = ⟨inner.cause, start.shift inner.position⟩ := by
  have here : (Cursor.ofList text.toList).shift start = ⟨start, text.toList⟩ := by
    rw [Cursor.shift, Cursor.ofList, Position.shift_origin]
  have same := Cursor.reading_shift start (.ofList text.toList)
  have first (inner : LexError) : (TokenStream.ofText text false).pull.1 = .error inner ↔
      (Cursor.ofList text.toList).reading = ⟨[], .error inner⟩ :=
    TokenStream.pull_error_iff _ rfl
  rw [here] at same
  simp only [first]
  generalize (Cursor.ofList text.toList).reading = own at same
  generalize (⟨start, text.toList⟩ : Cursor).reading = moved at same
  obtain ⟨lexemes, outcome⟩ := own
  obtain ⟨movedLexemes, movedOutcome⟩ := moved
  obtain ⟨sameLexemes, sameOutcome⟩ := same
  simp only at sameLexemes sameOutcome
  constructor
  · rintro ⟨⟩
    cases sameLexemes
    cases sameOutcome with
    | fault cause place => exact ⟨_, rfl, by rw [place]⟩
  · rintro ⟨inner, ⟨⟩, rfl⟩
    cases sameLexemes
    cases sameOutcome with
    | fault cause place => rw [place]

/-! ## Parsing a text that goes on -/

namespace Progress

variable {limit : Nat} {reached : Progress} {numeral : String} {start : Position}
  {behind : List (Lexeme × Position)} {outcome : Except LexError Position}

/-- A numeral out of range is reported if something can be read behind it. -/
theorem follow_outOfRange (far : reached.step limit (.number numeral) = .outOfRange)
    (readable : ∀ error, Reading.mk behind outcome ≠ ⟨[], .error error⟩) :
    reached.follow limit ((.number numeral, start) :: behind) outcome =
      .error ⟨.outOfRange numeral, start⟩ := by
  simp only [follow, far]
  split
  · exact absurd rfl (readable _)
  · rfl

/-- A fault directly behind a numeral out of range is reported, and the numeral is not. -/
theorem follow_outOfRange_of_fault {error : LexError}
    (far : reached.step limit (.number numeral) = .outOfRange) :
    reached.follow limit [(.number numeral, start)] (.error error) =
      .error error.toParseError := by
  simp only [follow, far]

end Progress

section Append

variable {source added : String} {failure : ParseError}

/-- An error that blames a character is reported for every text that goes on with a blank. -/
theorem parse_append_of_unexpectedChar (blank : ∀ c ∈ added.toList.head?, isBlank c = true)
    (failed : Expr.parse source = .error failure) {c : Char}
    (blamed : failure.cause = .unexpectedChar c ∨ failure.cause = .lex (.unexpectedChar c)) :
    Expr.parse (source ++ added) = .error failure := by
  cases fails_of_parse failed with
  | fault error faulty =>
      obtain ⟨cause, place⟩ := error
      obtain rfl : cause = .unexpectedChar c := by simpa [LexError.toParseError] using blamed
      rw [parse_eq_follow, Reading.ofText_append_of_unexpectedChar blank faulty, ← parse_eq_follow]
      exact failed
  | incomplete => simp at blamed
  | outOfRange => simp at blamed
  | refused before behind value start reached split fed refused =>
      obtain ⟨later, lexemes⟩ := Reading.exists_lexemes_append source blank
      rw [parse_eq_follow, lexemes, split, List.append_assoc, List.cons_append]
      exact Progress.follow_refused fed refused

/-- Behind a numeral that was reported as out of range something was read, if only the end. -/
theorem ending_of_outOfRange {before : List (Lexeme × Position)} {numeral : String}
    {start : Position} {reached : Progress}
    (failed : Expr.parse source = .error ⟨.outOfRange numeral, start⟩)
    (split : (Reading.ofText source).lexemes = before ++ [(.number numeral, start)])
    (fed : (Progress.operand []).feed maxDepth (before.map Prod.fst) = some reached)
    (far : reached.step maxDepth (.number numeral) = .outOfRange) :
    (Reading.ofText source).outcome = .ok (Position.origin.past source.toList) := by
  cases outcome : (Reading.ofText source).outcome with
  | ok ending =>
      obtain rfl := (Cursor.isWithin_ofList source.toList).ending outcome
      rfl
  | error error =>
      rw [parse_eq_follow, split, outcome, Progress.follow_append fed,
        Progress.follow_outOfRange_of_fault far] at failed
      cases error
      simp [LexError.toParseError] at failed

/-- A numeral out of range is reported for every text that goes on with a blank, unless it is
the last token of its text and the first one that is added cannot be read. -/
theorem parse_append_of_outOfRange {before behind : List (Lexeme × Position)} {numeral : String}
    {start : Position} {reached : Progress} (blank : ∀ c ∈ added.toList.head?, isBlank c = true)
    (split : (Reading.ofText source).lexemes = before ++ (.number numeral, start) :: behind)
    (fed : (Progress.operand []).feed maxDepth (before.map Prod.fst) = some reached)
    (far : reached.step maxDepth (.number numeral) = .outOfRange) :
    (behind ≠ [] → Expr.parse (source ++ added) = .error ⟨.outOfRange numeral, start⟩) ∧
    ∀ ending, behind = [] → (Reading.ofText source).outcome = .ok ending →
      Expr.parse (source ++ added) = match (TokenStream.ofText added false).pull.1 with
        | .ok _ => .error ⟨.outOfRange numeral, start⟩
        | .error error => .error ⟨.lex error.cause, ending.shift error.position⟩ := by
  constructor
  · intro more
    obtain ⟨later, lexemes⟩ := Reading.exists_lexemes_append source blank
    rw [parse_eq_follow, lexemes, split, List.append_assoc, List.cons_append,
      Progress.follow_append fed]
    exact Progress.follow_outOfRange far (by simp [more])
  · rintro ending rfl ends
    rw [parse_eq_follow, Reading.ofText_append_of_ending blank ends, split, List.append_assoc,
      List.singleton_append, Progress.follow_append fed]
    have masked := Cursor.reading_eq_fault_iff ending added
    cases pulled : (TokenStream.ofText added false).pull.1 with
    | ok token =>
        refine Progress.follow_outOfRange far fun error faulty => ?_
        obtain ⟨inner, unread, _⟩ := (masked error).mp faulty
        simp [pulled] at unread
    | error inner =>
        rw [(masked _).mpr ⟨inner, pulled, rfl⟩]
        exact Progress.follow_outOfRange_of_fault far

end Append

/-- What is reported for a text is reported for every text that goes on behind it with a blank, if
it is a character that is refused. So is a numeral out of range, unless only blanks stand behind
it and the first token that is added cannot be read: then that fault is reported, counted on
from the end of the text. -/
theorem parse_append_of_error {source added : String} {failure : ParseError}
    (failed : Expr.parse source = .error failure)
    (blank : ∃ c ∈ added.toList.head?, isBlank c = true) :
    (∀ c, failure.cause = .unexpectedChar c ∨ failure.cause = .lex (.unexpectedChar c) →
      Expr.parse (source ++ added) = .error failure) ∧
    ∀ numeral, failure.cause = .outOfRange numeral →
      ∃ front behind, source.toList = front ++ (numeral.toList ++ behind) ∧
        Position.origin.past front = failure.position ∧
        ((∃ c ∈ behind, isBlank c = false) →
          Expr.parse (source ++ added) = .error failure) ∧
        (∀ token, (TokenStream.ofText added false).pull.1 = .ok token →
          Expr.parse (source ++ added) = .error failure) ∧
        ((∀ c ∈ behind, isBlank c = true) →
          ∀ error, (TokenStream.ofText added false).pull.1 = .error error →
            Expr.parse (source ++ added) = .error ⟨.lex error.cause,
              (Position.origin.past source.toList).shift error.position⟩) := by
  obtain ⟨first, head, space⟩ := blank
  have blank : ∀ c ∈ added.toList.head?, isBlank c = true := by
    intro c member
    rwa [Option.mem_unique member head]
  refine ⟨fun c blamed => parse_append_of_unexpectedChar blank failed blamed, ?_⟩
  intro numeral cause
  cases fails_of_parse failed with
  | fault | incomplete | refused => simp [LexError.toParseError] at cause
  | outOfRange before rest other start reached split fed far =>
      obtain rfl : other = numeral := by simpa using cause
      obtain ⟨front, next, text, place, behind⟩ := Reading.exists_numeral split
      obtain ⟨goesOn, last⟩ := parse_append_of_outOfRange blank split fed far
      refine ⟨front, next.rest, text, place, ?_, ?_, ?_⟩
      · rintro ⟨c, member, visible⟩
        -- If no lexeme came behind the numeral, there could only be blanks up to the end.
        refine goesOn fun none => ?_
        subst none
        rw [ending_of_outOfRange failed split fed far] at behind
        have blanks := (Cursor.blanks_of_reading_ending behind).1 c member
        simp [visible] at blanks
      · intro token pulled
        by_cases more : rest = []
        · subst more
          rw [last _ rfl (ending_of_outOfRange failed split fed far), pulled]
        · exact goesOn more
      · intro blanks error pulled
        obtain ⟨none, _⟩ := lists_nil blanks
        obtain rfl : rest = [] := by simpa [behind] using none
        rw [last _ rfl (ending_of_outOfRange failed split fed far), pulled]

/-- A second operand stays refused in front of a tilde, and a numeral stays out of range in front
of another one. -/
theorem parse_append_of_error_stays :
    Expr.parse "1 2" = .error ⟨.unexpectedChar '2', ⟨2, 0, 2⟩⟩ ∧
      Expr.parse ("1 2" ++ " ~") = .error ⟨.unexpectedChar '2', ⟨2, 0, 2⟩⟩ ∧
      Expr.parse "99999999999999999999" =
        .error ⟨.outOfRange "99999999999999999999", ⟨0, 0, 0⟩⟩ ∧
      (TokenStream.ofText " 1" false).pull.1 = .ok ⟨.lexeme (.number "1"), ⟨1, 0, 1⟩, none⟩ ∧
      Expr.parse ("99999999999999999999" ++ " 1") =
        .error ⟨.outOfRange "99999999999999999999", ⟨0, 0, 0⟩⟩ := by
  have refused : Expr.parse "1 2" = .error ⟨.unexpectedChar '2', ⟨2, 0, 2⟩⟩ := by decide +kernel
  have far : Expr.parse "99999999999999999999" =
      .error ⟨.outOfRange "99999999999999999999", ⟨0, 0, 0⟩⟩ := by decide +kernel
  have another : (TokenStream.ofText " 1" false).pull.1 =
      .ok ⟨.lexeme (.number "1"), ⟨1, 0, 1⟩, none⟩ := by decide +kernel
  have tilde : ∃ c ∈ " ~".toList.head?, isBlank c = true := ⟨' ', by simp, by decide⟩
  have digit : ∃ c ∈ " 1".toList.head?, isBlank c = true := ⟨' ', by simp, by decide⟩
  obtain ⟨stays, _⟩ := parse_append_of_error refused tilde
  obtain ⟨_, _, _, _, _, still, _⟩ := (parse_append_of_error far digit).2 _ rfl
  exact ⟨refused, stays '2' (.inl rfl), far, another, still _ another⟩

/-- Not every error that blames a character or a numeral is reported for all texts that go on with
a blank: a numeral out of range is not if a tilde follows. -/
theorem exists_parse_append_ne :
    ¬ ∀ (source added : String) (failure : ParseError), Expr.parse source = .error failure →
      ((∃ c, failure.cause = .unexpectedChar c ∨ failure.cause = .lex (.unexpectedChar c)) ∨
        ∃ numeral, failure.cause = .outOfRange numeral) →
      (∃ c ∈ added.toList.head?, isBlank c = true) →
      Expr.parse (source ++ added) = .error failure := by
  intro law
  have far : Expr.parse "99999999999999999999" =
      .error ⟨.outOfRange "99999999999999999999", ⟨0, 0, 0⟩⟩ := by decide +kernel
  have masked : Expr.parse ("99999999999999999999" ++ " ~") =
      .error ⟨.lex (.unexpectedChar '~'), ⟨21, 0, 21⟩⟩ := by decide +kernel
  have same := law _ " ~" _ far (.inr ⟨_, rfl⟩) ⟨' ', by simp, by decide⟩
  rw [masked] at same
  cases same

end EdgeExpression
