import EdgeExpression.Proofs.Recognition

/-!
# Which fault is reported

A text may have several faults: it cannot be cut into lexemes, a lexeme cannot stand where
it does, a numeral is out of range, or the end comes too early. Parsing cuts the text while
it reads, and reports the fault that it meets first.

There are four ways to fail, and each says how far the reading had come. Since the lexemes
of a reading begin in front of the fault that ends it, a fault of the parser's own lies
in front of that of the lexemes; and if there is no fault in the lexemes, none is reported.
-/
namespace EdgeExpression

namespace Progress

/-- The ways in which a reading in progress fails on the lexemes that are left. -/
inductive Fails (limit : Nat) (progress : Progress) (lexemes : List (Lexeme × Position))
    (outcome : Except LexError Position) : ParseError → Prop where
  /-- The text could not be cut into lexemes any further. -/
  | fault (error : LexError) : outcome = .error error →
      Fails limit progress lexemes outcome error.toParseError
  /-- The text ended where the expression was not complete. -/
  | incomplete (ending : Position) (reached : Progress) : outcome = .ok ending →
      progress.feed limit (lexemes.map Prod.fst) = some reached → reached.finish = none →
      Fails limit progress lexemes outcome ⟨.unexpectedEnd, ending⟩
  /-- A lexeme could not stand where it did. -/
  | refused (before behind : List (Lexeme × Position)) (value : Lexeme) (start : Position)
      (reached : Progress) : lexemes = before ++ (value, start) :: behind →
      progress.feed limit (before.map Prod.fst) = some reached →
      reached.step limit value = .refused →
      Fails limit progress lexemes outcome ⟨.unexpectedChar value.leadChar, start⟩
  /-- No 64-bit integer could be read from a numeral. -/
  | outOfRange (before behind : List (Lexeme × Position)) (numeral : String) (start : Position)
      (reached : Progress) : lexemes = before ++ (.number numeral, start) :: behind →
      progress.feed limit (before.map Prod.fst) = some reached →
      reached.step limit (.number numeral) = .outOfRange →
      Decimal.toInt64? numeral = none →
      Fails limit progress lexemes outcome ⟨.outOfRange numeral, start⟩

variable {limit : Nat} {progress following : Progress} {lexemes : List (Lexeme × Position)}
  {outcome : Except LexError Position} {failure : ParseError}

/-- A failure behind a step is a failure of the reading in front of it. -/
theorem Fails.cons {value : Lexeme} {start : Position}
    (taken : progress.step limit value = .next following)
    (fails : following.Fails limit lexemes outcome failure) :
    progress.Fails limit ((value, start) :: lexemes) outcome failure := by
  have fed : ∀ {ls reached}, following.feed limit ls = some reached →
      progress.feed limit (value :: ls) = some reached := by
    intro ls reached fed
    rw [feed_cons taken, fed]
  cases fails with
  | fault error failed => exact .fault error failed
  | incomplete ending reached ends read missing =>
      exact .incomplete ending reached ends (fed read) missing
  | refused before behind other place reached split read refused =>
      exact .refused ((value, start) :: before) behind other place reached
        (congrArg _ split) (fed read) refused
  | outOfRange before behind numeral place reached split read far unread =>
      exact .outOfRange ((value, start) :: before) behind numeral place reached
        (congrArg _ split) (fed read) far unread

/-- A reading that is followed without success fails in one of the four ways. Proof: by
induction on the lexemes that are left. -/
theorem fails_of_follow (failed : progress.follow limit lexemes outcome = .error failure) :
    progress.Fails limit lexemes outcome failure := by
  induction lexemes generalizing progress with
  | nil =>
      cases outcome with
      | error error =>
          obtain rfl := Except.error.inj failed
          exact .fault error rfl
      | ok ending =>
          cases complete : progress.finish with
          | some e => simp [follow, complete] at failed
          | none =>
              obtain rfl : ⟨.unexpectedEnd, ending⟩ = failure := by
                simpa [follow, complete] using failed
              exact .incomplete ending progress rfl rfl complete
  | cons entry rest induction =>
      rcases entry with ⟨value, start⟩
      cases taken : progress.step limit value with
      | next following =>
          simp only [follow, taken] at failed
          exact (induction failed).cons taken
      | refused =>
          obtain rfl : ⟨.unexpectedChar value.leadChar, start⟩ = failure := by
            simpa [follow, taken] using failed
          exact .refused [] rest value start progress rfl rfl taken
      | outOfRange =>
          obtain ⟨numeral, rfl, unread⟩ := number_of_step_outOfRange taken
          simp only [follow, taken] at failed
          split at failed
          · next error =>
              obtain rfl := Except.error.inj failed
              exact .fault error rfl
          · obtain rfl := Except.error.inj failed
            exact .outOfRange [] rest numeral start progress rfl rfl taken unread

end Progress

/-- A text that is not parsed fails in one of the four ways. -/
theorem fails_of_parse {source : String} {failure : ParseError}
    (failed : Expr.parse source = .error failure) :
    (Progress.operand []).Fails maxDepth (Reading.ofText source).lexemes
      (Reading.ofText source).outcome failure :=
  Progress.fails_of_follow ((parse_eq_follow source).symm.trans failed)

/-! ## The order of faults -/

/-- A fault is reported where the reader has stopped. -/
@[simp] theorem LexError.position_stoppedAt (cursor : Cursor) :
    (LexError.stoppedAt cursor).position = cursor.position := by
  unfold LexError.stoppedAt
  split <;> rfl

/-- Every lexeme of a reading begins in front of the fault that ends the reading. -/
theorem Cursor.offset_lt_fault (cursor : Cursor) {error : LexError}
    (faulty : cursor.reading.outcome = .error error) :
    cursor.position.offset ≤ error.position.offset ∧
      ∀ entry ∈ cursor.reading.lexemes, entry.2.offset < error.position.offset := by
  fun_induction reading cursor with
  | case1 cursor value start behind seen induction =>
      obtain ⟨blanks, own, passes, rfl, found⟩ := look_eq_lexeme_iff.mp seen
      obtain ⟨least, later⟩ := induction faulty
      have own := Position.offset_lt_past (cursor.position.past blanks) (scan_read_ne_nil found)
      rw [← passes.position] at own
      refine ⟨Nat.le_trans passes.offset_le least, List.forall_mem_cons.mpr ⟨?_, later⟩⟩
      exact Nat.lt_of_lt_of_le own least
  | case2 cursor behind seen => cases faulty
  | case3 cursor stopped seen =>
      obtain ⟨blanks, read, passes, _⟩ := of_look_eq_fault seen
      obtain rfl := Except.error.inj faulty
      exact ⟨by simpa using passes.offset_le, by simp⟩

/-- Taking all tokens of a text fails exactly as its reading does. -/
theorem tokenize_eq_error_iff (source : String) (mapped : Bool) (error : LexError) :
    tokenize source mapped = .error error ↔ (Reading.ofText source).outcome = .error error := by
  have told := tokenize_tells source mapped
  unfold Reading.Tells at told
  split at told
  · next ending sound =>
      obtain ⟨tokens, succeeded, _⟩ := told
      simp [succeeded, sound]
  · next other faulty => simp [told, faulty]

/-- No expression is read from a text with a fault. -/
theorem parse_ne_ok_of_fault {source : String} {error : LexError}
    (faulty : (Reading.ofText source).outcome = .error error) (e : Expr) :
    Expr.parse source ≠ .ok e := by
  intro parsed
  rw [parse_eq_follow, Progress.follow_eq_ok_iff, faulty] at parsed
  obtain ⟨⟨ending, sound⟩, _⟩ := parsed
  cases sound

/-- The lexemes' fault is the one reported, or else one of the parser's own that lies in
front of it and is not that the text ends too early. -/
theorem parse_of_fault {source : String} {error : LexError}
    (faulty : (Reading.ofText source).outcome = .error error) :
    ∃ failure, Expr.parse source = .error failure ∧
      (failure = error.toParseError ∨
        ((∃ c, failure.cause = .unexpectedChar c) ∨
          ∃ numeral, failure.cause = .outOfRange numeral) ∧
        failure.position.offset < error.position.offset) := by
  cases parsed : Expr.parse source with
  | ok e => exact absurd parsed (parse_ne_ok_of_fault faulty e)
  | error failure =>
      refine ⟨failure, rfl, ?_⟩
      have order := (Cursor.offset_lt_fault _ faulty).2
      cases fails_of_parse parsed with
      | fault other failed =>
          rw [faulty] at failed
          exact .inl (congrArg _ (Except.error.inj failed).symm)
      | incomplete ending reached ends => simp [faulty] at ends
      | refused before behind value start reached split =>
          have member : (value, start) ∈ (Reading.ofText source).lexemes := by simp [split]
          exact .inr ⟨.inl ⟨_, rfl⟩, order _ member⟩
      | outOfRange before behind numeral start reached split =>
          have member : (.number numeral, start) ∈ (Reading.ofText source).lexemes := by
            simp [split]
          exact .inr ⟨.inr ⟨_, rfl⟩, order _ member⟩

/-- If a fault of the lexemes is reported, the reading has it. -/
theorem outcome_of_parse_lex {source : String} {cause : LexCause} {position : Position}
    (failed : Expr.parse source = .error ⟨.lex cause, position⟩) :
    (Reading.ofText source).outcome = .error ⟨cause, position⟩ := by
  cases fails_of_parse failed with
  | fault error faulty => exact faulty

/-- Parsing pulls tokens on demand, and reports what taking all tokens first would report:
no fault of the lexemes if there is none, and otherwise that fault or one in front of it.
Reading a text as a string tells the two kinds of faults apart, and recording the source
makes no difference to parsing. -/
theorem parse_reports_first_fault (source : String) :
    (∀ tokens, tokenize source false = .ok tokens →
      ∀ cause position, Expr.parse source ≠ .error ⟨.lex cause, position⟩) ∧
    (∀ error, tokenize source false = .error error →
      ∃ failure, Expr.parse source = .error failure ∧
        (failure = ⟨.lex error.cause, error.position⟩ ∨
          ((∃ c, failure.cause = .unexpectedChar c) ∨
            ∃ numeral, failure.cause = .outOfRange numeral) ∧
          failure.position.offset < error.position.offset)) ∧
    (∀ error, Expr.ofString source = .error (.lex error) →
      tokenize source false = .error error) ∧
    (∀ e, Expr.ofString source = .ok e ↔ Expr.parse source = .ok e) ∧
    (TokenStream.ofText source true).parse = Expr.parse source := by
  refine ⟨?_, ?_, ?_, ofString_eq_ok_iff source, ?_⟩
  · intro tokens succeeded cause position failed
    have faulty := (tokenize_eq_error_iff source false _).mpr (outcome_of_parse_lex failed)
    rw [succeeded] at faulty
    cases faulty
  · intro error failed
    exact parse_of_fault ((tokenize_eq_error_iff source false error).mp failed)
  · intro error failed
    rw [tokenize_eq_error_iff]
    unfold Expr.ofString at failed
    cases parsed : Expr.parse source with
    | ok e => simp [parsed, Except.mapError] at failed
    | error failure =>
        rcases failure with ⟨cause, position⟩
        cases cause with
        | lex cause =>
            obtain rfl : ⟨cause, position⟩ = error := by
              simpa [parsed, Except.mapError, ParseError.toError] using failed
            exact outcome_of_parse_lex parsed
        | _ => simp [parsed, Except.mapError, ParseError.toError] at failed
  · have mapped := Progress.run_eq_follow maxDepth (.operand []) _
      (TokenStream.isPlaced_ofText source true)
    exact mapped.trans (parse_eq_follow source).symm

/-- An operand too many is reported, and not the dollar sign behind it that no lexeme
begins with. -/
theorem parse_reports_operand_before_dollar :
    tokenize "1 2 $" false = .error ⟨.unexpectedEnd, ⟨5, 0, 5⟩⟩ ∧
      ∃ failure, Expr.parse "1 2 $" = .error failure ∧
        (failure = ⟨.lex .unexpectedEnd, ⟨5, 0, 5⟩⟩ ∨
          ((∃ c, failure.cause = .unexpectedChar c) ∨
            ∃ numeral, failure.cause = .outOfRange numeral) ∧
          failure.position.offset < 5) := by
  have failed : tokenize "1 2 $" false = .error ⟨.unexpectedEnd, ⟨5, 0, 5⟩⟩ := by decide +kernel
  obtain ⟨_, reported, _⟩ := parse_reports_first_fault "1 2 $"
  exact ⟨failed, reported _ failed⟩

end EdgeExpression
