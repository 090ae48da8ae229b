import EdgeExpression.Proofs.Positions

/-!
# Reading on from any place

Parsing looks at lexemes and never at the places where they stand; places are only reported.
So two readings with the same lexemes and the same outcome are parsed alike, and the errors
differ in their positions as the readings do.

A text that begins in the middle of another one has the same reading there, but for the
positions: offsets and lines are counted from where it begins, and so are columns as long as no
line feed has come. Hence a stream that calls have left anywhere, behind a colon or an error or
behind the end, is parsed as the rest of its text is.
-/
namespace EdgeExpression

/-! ## Positions are only reported -/

/-- Two outcomes of reading are the same, at related places. -/
inductive SameOutcome (related : Position → Position → Prop) :
    Except LexError Position → Except LexError Position → Prop where
  | ending {first second : Position} : related first second →
      SameOutcome related (.ok first) (.ok second)
  | fault (cause : LexCause) {first second : Position} : related first second →
      SameOutcome related (.error ⟨cause, first⟩) (.error ⟨cause, second⟩)

/-- Two lists of lexemes are the same, at related places. -/
def SameLexemes (related : Position → Position → Prop) :
    List (Lexeme × Position) → List (Lexeme × Position) → Prop :=
  List.Forall₂ fun entry other => entry.1 = other.1 ∧ related entry.2 other.2

/-- Two results of parsing are the same: an expression, or an error at related places. -/
inductive SameResult (related : Position → Position → Prop) :
    Except ParseError Expr → Except ParseError Expr → Prop where
  | expression (e : Expr) : SameResult related (.ok e) (.ok e)
  | failure (cause : ParseCause) {first second : Position} : related first second →
      SameResult related (.error ⟨cause, first⟩) (.error ⟨cause, second⟩)

variable {related : Position → Position → Prop} {limit : Nat}
  {outcome otherOutcome : Except LexError Position}
  {lexemes others : List (Lexeme × Position)}

/-- A reading that finds the same at related places is followed to the same result. Proof: by
induction on the lexemes, which take the same steps; each error takes its position from the
lexeme that is refused or out of range, or from the outcome. -/
theorem Progress.follow_sameResult (same : SameLexemes related lexemes others)
    (ends : SameOutcome related outcome otherOutcome) (progress : Progress) :
    SameResult related (progress.follow limit lexemes outcome)
      (progress.follow limit others otherOutcome) := by
  induction same generalizing progress with
  | nil =>
      cases ends with
      | fault cause places => exact .failure (.lex cause) places
      | ending places =>
          cases complete : progress.finish with
          | some e =>
              simp only [follow, complete]
              exact .expression e
          | none =>
              simp only [follow, complete]
              exact .failure .unexpectedEnd places
  | @cons entry other rest otherRest first behind induction =>
      rcases entry with ⟨value, start⟩
      rcases other with ⟨otherValue, otherStart⟩
      obtain ⟨rfl, places⟩ : value = otherValue ∧ related start otherStart := first
      cases taken : progress.step limit value with
      | next following =>
          simp only [follow, taken]
          exact induction following
      | refused =>
          simp only [follow, taken]
          exact .failure (.unexpectedChar value.leadChar) places
      | outOfRange =>
          simp only [follow, taken]
          cases behind with
          | nil =>
              cases ends with
              | fault cause faults => exact .failure (.lex cause) faults
              | ending => exact .failure (.outOfRange value.cargo) places
          | cons => exact .failure (.outOfRange value.cargo) places

/-! ## Positions of a part of a text -/

namespace Position

/-- Where a place of a part of a text lies in the whole text, given where the part begins.
Offsets and lines add up; so do columns, but only on the first line of the part. -/
def shift (start inner : Position) : Position :=
  ⟨start.offset + inner.offset, start.line + inner.line,
    if inner.line = 0 then start.column + inner.column else inner.column⟩

/-- The place of the beginning is where the text begins. -/
@[simp] theorem shift_origin (start : Position) : start.shift origin = start := rfl

/-- Moving on by one character may be done in the part or in the whole. -/
theorem shift_next (start inner : Position) (c : Char) :
    start.shift (inner.next c) = (start.shift inner).next c := by
  by_cases feed : c = '\n'
  · simp [shift, next, feed, Nat.add_assoc]
  · by_cases firstLine : inner.line = 0
    · simp [shift, next, feed, firstLine, Nat.add_assoc]
    · simp [shift, next, feed, firstLine, Nat.add_assoc]

/-- Moving past a text and moving the text commute. -/
theorem shift_past (start inner : Position) (text : List Char) :
    start.shift (inner.past text) = (start.shift inner).past text := by
  induction text generalizing inner with
  | nil => rfl
  | cons c text induction => rw [past_cons, past_cons, induction, shift_next]

end Position

/-- The cursor in the whole text at the place of a cursor in a part of it. -/
def Cursor.shift (start : Position) (cursor : Cursor) : Cursor :=
  ⟨start.shift cursor.position, cursor.rest⟩

/-- What is seen in a part of a text, at its places in the whole text. -/
def Sight.shift (start : Position) : Sight → Sight
  | .lexeme value begins behind => .lexeme value (start.shift begins) (behind.shift start)
  | .ending behind => .ending (behind.shift start)
  | .fault stopped => .fault (stopped.shift start)

namespace Cursor

/-- Dropping characters and moving the text commute. -/
theorem drop_shift (start : Position) (cursor : Cursor) (n : Nat) :
    (cursor.shift start).drop n = (cursor.drop n).shift start := by
  simp [shift, drop, Position.shift_past]

/-- In the whole text the same is seen as in the part. -/
theorem look_shift (start : Position) (cursor : Cursor) :
    (cursor.shift start).look = cursor.look.shift start := by
  have skipped : (cursor.shift start).skip isBlank = (cursor.skip isBlank).shift start :=
    drop_shift start cursor _
  have left : ((cursor.skip isBlank).shift start).rest = (cursor.skip isBlank).rest := rfl
  rw [look, look, skipped, lookHere, lookHere, left]
  split
  · rfl
  · split
    · rw [drop_shift]
      rfl
    · rw [drop_shift]
      rfl

/-- The error of a reader that stopped in a part of a text has the same cause in the whole. -/
theorem stoppedAt_shift (start : Position) (cursor : Cursor) :
    LexError.stoppedAt (cursor.shift start) =
      ⟨(LexError.stoppedAt cursor).cause, start.shift (LexError.stoppedAt cursor).position⟩ := by
  have left : (cursor.shift start).rest = cursor.rest := rfl
  unfold LexError.stoppedAt
  rw [left]
  split <;> rfl

/-- In the whole text the same is read as in the part. -/
theorem reading_shift (start : Position) (cursor : Cursor) :
    SameLexemes (fun inner outer => outer = start.shift inner)
        cursor.reading.lexemes (cursor.shift start).reading.lexemes ∧
      SameOutcome (fun inner outer => outer = start.shift inner)
        cursor.reading.outcome (cursor.shift start).reading.outcome := by
  fun_induction reading cursor with
  | case1 cursor value begins behind seen induction =>
      have moved : (cursor.shift start).look =
          .lexeme value (start.shift begins) (behind.shift start) := by
        rw [look_shift, seen]
        rfl
      rw [reading_of_lexeme moved]
      exact ⟨.cons ⟨rfl, rfl⟩ induction.1, induction.2⟩
  | case2 cursor behind seen =>
      have moved : (cursor.shift start).look = .ending (behind.shift start) := by
        rw [look_shift, seen]
        rfl
      rw [reading_of_ending moved]
      exact ⟨.nil, .ending rfl⟩
  | case3 cursor stopped seen =>
      have moved : (cursor.shift start).look = .fault (stopped.shift start) := by
        rw [look_shift, seen]
        rfl
      rw [reading_of_fault moved, stoppedAt_shift]
      exact ⟨.nil, .fault _ rfl⟩

end Cursor

/-- An error in a part of a text, reported for the whole text. -/
def ParseError.shift (start : Position) (error : ParseError) : ParseError :=
  ⟨error.cause, start.shift error.position⟩

namespace SameResult

/-- The same expressions result. -/
theorem eq_ok_iff {first second : Except ParseError Expr} (same : SameResult related first second)
    (e : Expr) : first = .ok e ↔ second = .ok e := by
  cases same with
  | expression => rfl
  | failure => simp

/-- An error is followed by one of the same cause at a related place. -/
theorem exists_of_error {failure : ParseError} {second : Except ParseError Expr}
    (same : SameResult related (.error failure) second) :
    ∃ place, related failure.position place ∧ second = .error ⟨failure.cause, place⟩ := by
  cases same with
  | failure cause places => exact ⟨_, places, rfl⟩

/-- Results whose errors lie at moved places differ in these places only. -/
theorem eq_mapError {start : Position} {inner outer : Except ParseError Expr}
    (same : SameResult (fun inner outer => outer = start.shift inner) inner outer) :
    outer = inner.mapError (ParseError.shift start) := by
  cases same with
  | expression e => rfl
  | failure cause places =>
      rw [places]
      rfl

end SameResult

/-- A stream in its place is parsed as the text that is left, with the positions of errors
counted on from its own. -/
theorem TokenStream.IsPlaced.parse_eq {stream : TokenStream} (placed : stream.IsPlaced) :
    stream.parse =
      (Expr.parse (String.ofList stream.cursor.rest)).mapError
        (ParseError.shift stream.cursor.position) := by
  have here : (Cursor.ofList stream.cursor.rest).shift stream.cursor.position = stream.cursor := by
    rw [Cursor.shift, Cursor.ofList, Position.shift_origin]
  obtain ⟨lexemes, outcome⟩ :=
    Cursor.reading_shift stream.cursor.position (.ofList stream.cursor.rest)
  rw [here] at lexemes outcome
  rw [TokenStream.parse, Progress.run_eq_follow maxDepth _ stream placed, parse_eq_follow,
    Reading.ofText, String.toList_ofList]
  exact (Progress.follow_sameResult lexemes outcome _).eq_mapError

/-- Parsing goes on from any place that calls have led to, also behind errors and behind the
end. What stands behind the place is a text of its own, and the result is the one of parsing
that text: the same expression, or an error of the same cause, whose position is counted from
the place. -/
theorem parse_from_any_place (source : String) (mapped : Bool) (calls : List Call) :
    ∃ before rest : String, source = before ++ rest ∧
      before.utf8ByteSize =
        (TokenStream.afterCalls source mapped calls).cursor.position.offset ∧
      (TokenStream.afterCalls source mapped calls).parse =
        (Expr.parse rest).mapError
          (ParseError.shift (TokenStream.afterCalls source mapped calls).cursor.position) := by
  obtain ⟨placed, same⟩ := TokenStream.isPlaced_afterCalls source mapped calls
  obtain ⟨before, split, position⟩ := id placed
  rw [same] at split
  refine ⟨String.ofList before, String.ofList _, ?_, ?_, placed.parse_eq⟩
  · rw [← String.ofList_append, ← split, String.ofList_toList]
  · rw [position, Position.offset_origin_past]

/-- Behind a line feed and a fault in the second line, the rest of the line is parsed where it
stands. -/
example :
    (TokenStream.afterCalls "1\n'é' = 2 3" false [.pull, .pull, .pull]).parse =
      .error ⟨.unexpectedChar '3', ⟨11, 1, 8⟩⟩ := by decide +kernel

end EdgeExpression
