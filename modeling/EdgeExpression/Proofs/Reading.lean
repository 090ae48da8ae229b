import EdgeExpression.Expr.Parser
import EdgeExpression.Proofs.Place

/-!
# What a text reads as

A token stream pulls its tokens one at a time, skips blanks or hands them out, and
remembers a colon. None of this matters to what is found: from every place of a text
on, the lexemes, their positions and the first fault are fixed by the characters that
are left. They are the reading of a cursor.

The tokens of a whole text are its reading with the blanks behind colons in between,
and parsing a token stream is following the reading of its cursor. Both laws hold for
every stream, so later arguments speak of readings and no longer of streams.
-/
namespace EdgeExpression

/-- The lexemes up to the end of a text or up to the first fault, each with the place
where it begins. -/
structure Reading where
  lexemes : List (Lexeme × Position)
  /-- The end of the text, or the fault. -/
  outcome : Except LexError Position

/-- What a text reads as, given the first token that is pulled and what the text behind
that token reads as. A token of blanks adds nothing; the end and a fault are the last. -/
def Reading.prepend (pulled : Except LexError Token) (rest : Reading) : Reading :=
  match pulled with
  | .ok ⟨.lexeme value, position, _⟩ => ⟨(value, position) :: rest.lexemes, rest.outcome⟩
  | .ok ⟨.space _, _, _⟩ => rest
  | .ok ⟨.ending, position, _⟩ => ⟨[], .ok position⟩
  | .error error => ⟨[], .error error⟩

namespace Cursor

/-- What the text behind a cursor reads as. -/
def reading (cursor : Cursor) : Reading :=
  match _ : cursor.look with
  | .lexeme value start behind =>
      ⟨(value, start) :: behind.reading.lexemes, behind.reading.outcome⟩
  | .ending behind => ⟨[], .ok behind.position⟩
  | .fault stopped => ⟨[], .error (.stoppedAt stopped)⟩
termination_by cursor.rest.length
decreasing_by all_goals exact rest_lt_of_look_eq_lexeme ‹_›

variable {cursor behind : Cursor}

/-- A lexeme that is seen is the first one of the reading. -/
theorem reading_of_lexeme {value : Lexeme} {start : Position}
    (seen : cursor.look = .lexeme value start behind) :
    cursor.reading = ⟨(value, start) :: behind.reading.lexemes, behind.reading.outcome⟩ := by
  rw [reading]
  split <;> simp_all

/-- At the end of a text the reading is empty. -/
theorem reading_of_ending (seen : cursor.look = .ending behind) :
    cursor.reading = ⟨[], .ok behind.position⟩ := by
  rw [reading]
  split <;> simp_all

/-- Where nothing can be seen the reading is empty, and the fault is reported. -/
theorem reading_of_fault (seen : cursor.look = .fault behind) :
    cursor.reading = ⟨[], .error (.stoppedAt behind)⟩ := by
  rw [reading]
  split <;> simp_all

/-- Behind a run of one class of characters there is no further run of it. -/
theorem skip_skip (cursor : Cursor) (p : Char → Bool) : (cursor.skip p).skip p = cursor.skip p := by
  have none : (cursor.rest.dropWhile p).takeWhile p = [] := by
    cases left : cursor.rest.dropWhile p with
    | nil => rfl
    | cons c rest =>
        have refused := List.head?_dropWhile_not p cursor.rest
        simp_all
  rw [skip, rest_skip, none]
  exact drop_zero _

/-- Blanks do not change what is seen behind them. -/
theorem look_skip (cursor : Cursor) : (cursor.skip isBlank).look = cursor.look := by
  rw [look, skip_skip, look]

/-- Blanks in front do not change what is read. -/
theorem reading_skip (cursor : Cursor) : (cursor.skip isBlank).reading = cursor.reading := by
  cases seen : cursor.look with
  | lexeme value start behind =>
      rw [reading_of_lexeme seen, reading_of_lexeme ((look_skip cursor).trans seen)]
  | ending behind =>
      rw [reading_of_ending seen, reading_of_ending ((look_skip cursor).trans seen)]
  | fault stopped =>
      rw [reading_of_fault seen, reading_of_fault ((look_skip cursor).trans seen)]

/-- Only lexemes that can be written are seen. -/
theorem look_legible {value : Lexeme} {start : Position}
    (seen : cursor.look = .lexeme value start behind) : value.Legible := by
  obtain ⟨_, _, _, _, found⟩ := look_eq_lexeme_iff.mp seen
  exact scan_found_legible found

/-- Everything that is read is legible. -/
theorem reading_legible (cursor : Cursor) : ∀ entry ∈ cursor.reading.lexemes, entry.1.Legible := by
  fun_induction reading cursor with
  | case1 cursor value start behind seen induction =>
      intro entry member
      rcases List.mem_cons.mp member with rfl | later
      · exact look_legible seen
      · exact induction entry later
  | case2 cursor behind seen => simp
  | case3 cursor stopped seen => simp

end Cursor

/-! ## One token -/

namespace TokenStream

variable {stream after : TokenStream} {result : Except LexError Token}

/-- The blanks behind a colon are one token, if there are any; any other token is what
stands behind the blanks. -/
theorem pull_cases (stream : TokenStream) :
    (stream.afterColon = true ∧ stream.cursor.rest.takeWhile isBlank ≠ [] ∧
      stream.pull =
        (.ok (stream.token (.space (String.ofList (stream.cursor.rest.takeWhile isBlank)))
          stream.cursor.position (stream.cursor.skip isBlank)),
          { stream with cursor := stream.cursor.skip isBlank, afterColon := false })) ∨
    ((stream.afterColon = true → stream.cursor.rest.takeWhile isBlank = []) ∧
      stream.pull = stream.pullBehindBlanks) := by
  cases colon : stream.afterColon with
  | false => exact .inr (by simp [pull, spaceRun, colon])
  | true =>
      cases run : stream.cursor.rest.takeWhile isBlank with
      | nil => exact .inr (by simp [pull, spaceRun, colon, run])
      | cons c blanks =>
          refine .inl ⟨rfl, by simp, ?_⟩
          simp only [pull, spaceRun, colon, run, if_true]
          rw [Cursor.skip, run]

/-- Each pull takes the first token off the reading of its stream. -/
theorem reading_pull (pulled : stream.pull = (result, after)) :
    stream.cursor.reading = .prepend result after.cursor.reading := by
  rcases pull_cases stream with ⟨_, _, blanks⟩ | ⟨_, behindBlanks⟩
  · obtain ⟨rfl, rfl⟩ := Prod.mk.inj (blanks.symm.trans pulled)
    exact (Cursor.reading_skip stream.cursor).symm
  · rw [behindBlanks, pullBehindBlanks] at pulled
    split at pulled
    · next seen =>
        obtain ⟨rfl, rfl⟩ := Prod.mk.inj pulled
        exact Cursor.reading_of_lexeme seen
    · next seen =>
        obtain ⟨rfl, rfl⟩ := Prod.mk.inj pulled
        exact Cursor.reading_of_ending seen
    · next seen =>
        obtain ⟨rfl, rfl⟩ := Prod.mk.inj pulled
        exact Cursor.reading_of_fault seen

/-- A pull that hands out a lexeme has seen it, and knows whether it was a colon. -/
theorem look_of_pull {value : Lexeme} {position : Position} {raw : Option String}
    (pulled : stream.pull = (.ok ⟨.lexeme value, position, raw⟩, after)) :
    stream.cursor.look = .lexeme value position after.cursor ∧
      after.afterColon = (value == .colon) := by
  rcases pull_cases stream with ⟨_, _, blanks⟩ | ⟨_, behindBlanks⟩
  · have token := congrArg Prod.fst (blanks.symm.trans pulled)
    simp [TokenStream.token] at token
  · rw [behindBlanks, pullBehindBlanks] at pulled
    split at pulled
    · next seen =>
        obtain ⟨token, rfl⟩ := Prod.mk.inj pulled
        obtain ⟨rfl, rfl, _⟩ : _ = value ∧ _ = position ∧ _ := by
          simpa [TokenStream.token] using token
        exact ⟨seen, rfl⟩
    · have token := congrArg Prod.fst pulled
      simp [TokenStream.token] at token
    · have token := congrArg Prod.fst pulled
      simp at token

/-- Whatever a pull answers, blanks and then some text are passed, and nothing else of the
stream but what it remembers of a colon is changed. -/
theorem pull_passes (pulled : stream.pull = (result, after)) :
    (∃ blanks own, stream.cursor.Passes blanks own after.cursor) ∧
      after.source = stream.source ∧ after.mapped = stream.mapped ∧ after.ended = stream.ended := by
  rcases pull_cases stream with ⟨_, _, blanks⟩ | ⟨_, behindBlanks⟩
  · obtain ⟨_, rfl⟩ := Prod.mk.inj (blanks.symm.trans pulled)
    exact ⟨⟨_, _, stream.cursor.passes_skip⟩, rfl, rfl, rfl⟩
  · rw [behindBlanks, pullBehindBlanks] at pulled
    split at pulled
    · next seen =>
        obtain ⟨_, rfl⟩ := Prod.mk.inj pulled
        obtain ⟨blanks, own, passes, _⟩ := Cursor.look_eq_lexeme_iff.mp seen
        exact ⟨⟨blanks, own, passes⟩, rfl, rfl, rfl⟩
    · next seen =>
        obtain ⟨_, rfl⟩ := Prod.mk.inj pulled
        obtain ⟨blanks, passes, _⟩ := Cursor.of_look_eq_ending seen
        exact ⟨⟨blanks, [], passes⟩, rfl, rfl, rfl⟩
    · next seen =>
        obtain ⟨_, rfl⟩ := Prod.mk.inj pulled
        obtain ⟨blanks, read, passes, _⟩ := Cursor.of_look_eq_fault seen
        exact ⟨⟨blanks, read, passes⟩, rfl, rfl, rfl⟩

/-- A stream is in its place if its cursor is within its text. -/
def IsPlaced (stream : TokenStream) : Prop := stream.cursor.IsWithin stream.source.toList

/-- The stream of a text begins in its place. -/
theorem isPlaced_ofText (source : String) (mapped : Bool) : (ofText source mapped).IsPlaced :=
  Cursor.isWithin_ofList source.toList

/-- A stream in its place stays there. -/
theorem IsPlaced.pull (placed : stream.IsPlaced) (pulled : stream.pull = (result, after)) :
    after.IsPlaced := by
  obtain ⟨⟨blanks, own, passes⟩, source, _⟩ := pull_passes pulled
  rw [IsPlaced, source]
  exact passes.isWithin placed

/-- A refused lexeme is shown by its first character: it stands in the text. -/
theorem IsPlaced.shownChar {value : Lexeme} {position : Position} {raw : Option String}
    (placed : stream.IsPlaced)
    (pulled : stream.pull = (.ok ⟨.lexeme value, position, raw⟩, after)) :
    stream.shownChar value position = value.leadChar := by
  rw [TokenStream.shownChar,
    Cursor.charAt_of_look_eq_lexeme placed (look_of_pull pulled).1]
  rfl

/-- Directly behind another token than a colon a pull fails exactly if the first thing to
read is a fault. -/
theorem pull_error_iff {error : LexError} (stream : TokenStream)
    (behindOther : stream.afterColon = false) :
    stream.pull.1 = .error error ↔ stream.cursor.reading = ⟨[], .error error⟩ := by
  rw [reading_pull (Prod.eta stream.pull).symm]
  rcases pull_cases stream with ⟨colon, _⟩ | ⟨_, behindBlanks⟩
  · simp [behindOther] at colon
  · cases pulled : stream.pull.1 with
    | error other => simp [Reading.prepend]
    | ok token =>
        rcases token with ⟨value | run | _, position, raw⟩
        · simp [Reading.prepend]
        · rw [behindBlanks, pullBehindBlanks] at pulled
          split at pulled <;> simp [TokenStream.token] at pulled
        · simp [Reading.prepend]

end TokenStream

/-! ## All tokens -/

/-- The tokens of blanks. -/
def Content.isSpace : Content → Bool
  | .space _ => true
  | _ => false

/-- The tokens other than those of blanks. -/
def significant (tokens : List Token) : List Token := tokens.filter (!·.content.isSpace)

namespace Reading

/-- What the tokens of a text stand for and where they begin, if they are those of a
reading. -/
def contents (reading : Reading) (ending : Position) : List (Content × Position) :=
  reading.lexemes.map (fun entry => (.lexeme entry.1, entry.2)) ++ [(.ending, ending)]

/-- The result of taking all tokens is that of a reading: its tokens with blanks in
between, or its fault. -/
def Tells (reading : Reading) (taken : Except LexError (List Token)) : Prop :=
  match reading.outcome with
  | .ok ending => ∃ tokens, taken = .ok tokens ∧
      (significant tokens).map (fun token => (token.content, token.position)) =
        reading.contents ending
  | .error error => taken = .error error

/-- One more token in front, which is not the end, is one more token of the reading or
one of blanks. -/
theorem tells_prepend {reading : Reading} {taken : Except LexError (List Token)} {token : Token}
    (rest : reading.Tells taken) (more : token.content ≠ .ending) :
    (Reading.prepend (.ok token) reading).Tells ((token :: ·) <$> taken) := by
  rcases reading with ⟨lexemes, _ | ending⟩
  · obtain rfl : taken = _ := rest
    rcases token with ⟨value | run | _, position, raw⟩
    · rfl
    · rfl
    · exact absurd rfl more
  · obtain ⟨tokens, rfl, told⟩ := rest
    rcases token with ⟨value | run | _, position, raw⟩
    · exact ⟨_, rfl, congrArg (List.cons (Content.lexeme value, position)) told⟩
    · exact ⟨_, rfl, told⟩
    · exact absurd rfl more

end Reading

namespace TokenStream

/-- Nothing remains of a stream that has ended. -/
theorem remaining_of_ended (stream : TokenStream) (ended : stream.ended = true) :
    stream.remaining = [] := by
  rw [remaining]
  split
  · rfl
  · next handed => simp [next, ended] at handed

/-- What a stream that has not ended hands out is its reading. Proof: by induction on
the handing out, one token at a time; nothing is handed out behind the end or a fault. -/
theorem remaining_tells (stream : TokenStream) (running : stream.ended = false) :
    stream.cursor.reading.Tells (stream.remaining.mapM id) := by
  fun_induction remaining stream with
  | case1 stream after handed => simp [next, running] at handed
  | case2 stream result after handed induction =>
      obtain ⟨_, behind, pulled, rfl⟩ := pull_of_next handed
      rw [reading_pull pulled]
      cases result with
      | error error => rfl
      | ok token =>
          by_cases more : token.content = .ending
          · rw [remaining_of_ended _ (by simp [isFinal, more])]
            obtain ⟨_, position, raw⟩ := token
            obtain rfl := more
            exact ⟨_, rfl, rfl⟩
          · have rest := induction (by simpa [isFinal] using more)
            have told := Reading.tells_prepend rest more
            have split (results : List (Except LexError Token)) :
                (.ok token :: results).mapM id = (token :: ·) <$> results.mapM id := by
              rw [List.mapM_cons, map_eq_pure_bind]
              rfl
            rw [split]
            exact told

end TokenStream

/-- What a whole text reads as. -/
def Reading.ofText (source : String) : Reading := (Cursor.ofList source.toList).reading

/-- The tokens of a text are those of its reading, or its fault is that of its reading. -/
theorem tokenize_tells (source : String) (mapped : Bool) :
    (Reading.ofText source).Tells (tokenize source mapped) :=
  TokenStream.remaining_tells (.ofText source mapped) rfl

/-- A reading lists lexemes if they are what it finds, and it goes to the end of the
text. -/
def Reading.Lists (reading : Reading) (lexemes : List Lexeme) : Prop :=
  reading.lexemes.map Prod.fst = lexemes ∧ ∃ ending, reading.outcome = .ok ending

/-- The lexemes of a text are its tokens without those of blanks and that of the end. -/
theorem lists_iff (source : String) (mapped : Bool) (lexemes : List Lexeme) :
    (Reading.ofText source).Lists lexemes ↔ ∃ tokens, tokenize source mapped = .ok tokens ∧
      (significant tokens).map Token.content = lexemes.map .lexeme ++ [.ending] := by
  have told := tokenize_tells source mapped
  unfold Reading.Lists
  generalize Reading.ofText source = reading at told ⊢
  rcases reading with ⟨found, _ | ending⟩
  · have failed : tokenize source mapped = .error _ := told
    simp [failed]
  · obtain ⟨tokens, succeeded, contents⟩ := told
    have first : (significant tokens).map Token.content =
        (found.map Prod.fst).map .lexeme ++ [.ending] := by
      simpa [Reading.contents, Function.comp_def] using congrArg (List.map Prod.fst) contents
    have injective : Function.Injective Content.lexeme := fun _ _ same => Content.lexeme.inj same
    simp [succeeded, first, injective.list_map.eq_iff, -List.map_map]

/-- A text consists of lexemes if these are its tokens, in their order, where those of
blanks and that of the end are left out. -/
def ConsistsOf (source : String) (lexemes : List Lexeme) : Prop :=
  ∃ tokens, tokenize source false = .ok tokens ∧
    (significant tokens).map Token.content = lexemes.map .lexeme ++ [.ending]

/-- A source consists of the lexemes that its reading lists. -/
theorem consistsOf_iff_lists (source : String) (lexemes : List Lexeme) :
    ConsistsOf source lexemes ↔ (Reading.ofText source).Lists lexemes :=
  (lists_iff source false lexemes).symm

/-- A text consists of one list of lexemes at most. -/
theorem ConsistsOf.unique {source : String} {lexemes others : List Lexeme}
    (consists : ConsistsOf source lexemes) (also : ConsistsOf source others) :
    lexemes = others := by
  obtain ⟨listed, _⟩ := (consistsOf_iff_lists source lexemes).mp consists
  obtain ⟨listedToo, _⟩ := (consistsOf_iff_lists source others).mp also
  exact listed.symm.trans listedToo

/-- The lexemes of a text are legible. -/
theorem ConsistsOf.legible {source : String} {lexemes : List Lexeme}
    (consists : ConsistsOf source lexemes) : ∀ lexeme ∈ lexemes, lexeme.Legible := by
  obtain ⟨rfl, _⟩ := (consistsOf_iff_lists source lexemes).mp consists
  intro lexeme member
  obtain ⟨entry, read, rfl⟩ := List.mem_map.mp member
  exact Cursor.reading_legible _ entry read

/-! ## Parsing -/

namespace Progress

/-- Goes on with an expression through the lexemes of a reading, up to its outcome. -/
def follow (limit : Nat) :
    Progress → List (Lexeme × Position) → Except LexError Position → Except ParseError Expr
  | _, [], .error error => .error error.toParseError
  | progress, [], .ok ending =>
      match progress.finish with
      | some e => .ok e
      | none => .error ⟨.unexpectedEnd, ending⟩
  | progress, (value, position) :: rest, outcome =>
      match progress.step limit value with
      | .next progress => follow limit progress rest outcome
      | .refused => .error ⟨.unexpectedChar value.leadChar, position⟩
      | .outOfRange =>
          match rest, outcome with
          | [], .error error => .error error.toParseError
          | _, _ => .error ⟨.outOfRange value.cargo, position⟩

/-- Opening a level is never refused for a number. -/
theorem nest_ne_outOfRange (limit : Nat) (frames : List Frame) (inner : Progress) :
    nest limit frames inner ≠ .outOfRange := by
  unfold nest
  split <;> simp

/-- A numeral is refused as out of range only if it is not read. -/
theorem toInt64?_of_numeral_outOfRange {text : String} {use : Int64 → Progress}
    (far : numeral text use = .outOfRange) : Decimal.toInt64? text = none := by
  unfold numeral at far
  split at far
  · cases far
  · next refused => exact refused

/-- Where an operand is due, only a numeral that is not read is out of range. -/
theorem number_of_beginOperand_outOfRange {limit : Nat} {frames : List Frame} {value : Lexeme}
    (far : beginOperand limit frames value = .outOfRange) :
    ∃ text, value = .number text ∧ Decimal.toInt64? text = none := by
  unfold beginOperand at far
  split at far
  case h_2 text => exact ⟨text, rfl, toInt64?_of_numeral_outOfRange far⟩
  case h_10 => split at far <;> cases far
  case h_11 => split at far <;> cases far
  all_goals first | cases far | exact absurd far (nest_ne_outOfRange _ _ _)

/-- Behind an operand nothing is out of range. -/
theorem endOperand_ne_outOfRange (limit : Nat) (e : Expr) (frames : List Frame) (value : Lexeme) :
    endOperand limit e frames value ≠ .outOfRange := by
  unfold endOperand
  split
  · split <;> simp
  · exact nest_ne_outOfRange _ _ _
  · unfold endPart
    split <;> simp

/-- Only a numeral can be out of range, and then no 64-bit integer is read from it. -/
theorem number_of_step_outOfRange {limit : Nat} {progress : Progress} {value : Lexeme}
    (far : progress.step limit value = .outOfRange) :
    ∃ text, value = .number text ∧ Decimal.toInt64? text = none := by
  unfold step at far
  split at far
  case h_1 => exact number_of_beginOperand_outOfRange far
  case h_2 => exact absurd far (endOperand_ne_outOfRange _ _ _ _)
  case h_7 text => exact ⟨text, rfl, toInt64?_of_numeral_outOfRange far⟩
  all_goals cases far

/-- Parsing a stream in its place is following the reading of its cursor. Proof: by
induction on the pulls. Behind a numeral out of range one more token is pulled; since a
numeral is no colon, that pull fails exactly if the reading ends there with a fault. -/
theorem run_eq_follow (limit : Nat) (progress : Progress) (stream : TokenStream)
    (placed : stream.IsPlaced) :
    progress.run limit stream =
      progress.follow limit stream.cursor.reading.lexemes stream.cursor.reading.outcome := by
  fun_induction run limit progress stream with
  | case1 progress stream error after pulled =>
      rw [TokenStream.reading_pull pulled]
      rfl
  | case2 progress stream run position raw after pulled induction =>
      rw [induction (placed.pull pulled), TokenStream.reading_pull pulled]
      rfl
  | case3 progress stream position raw after pulled e complete =>
      rw [TokenStream.reading_pull pulled]
      simp [Reading.prepend, follow, complete]
  | case4 progress stream position raw after pulled incomplete =>
      rw [TokenStream.reading_pull pulled]
      simp [Reading.prepend, follow, incomplete]
  | case5 progress stream value position raw after pulled progress' taken induction =>
      rw [induction (placed.pull pulled), TokenStream.reading_pull pulled]
      simp [Reading.prepend, follow, taken]
  | case6 progress stream value position raw after pulled refused =>
      rw [TokenStream.reading_pull pulled]
      simp [Reading.prepend, follow, refused, placed.shownChar pulled]
  | case7 progress stream value position raw after pulled far error after' failed =>
      obtain ⟨text, rfl, _⟩ := number_of_step_outOfRange far
      have fault := (TokenStream.pull_error_iff after (TokenStream.look_of_pull pulled).2).mp
        (congrArg Prod.fst failed)
      rw [TokenStream.reading_pull pulled]
      simp [Reading.prepend, follow, far, fault]
  | case8 progress stream value position raw after pulled far others =>
      obtain ⟨text, rfl, _⟩ := number_of_step_outOfRange far
      rw [TokenStream.reading_pull pulled]
      simp only [Reading.prepend, follow, far]
      split
      · next error none failed =>
          have read : after.cursor.reading = ⟨[], .error error⟩ := by
            rw [← none, ← failed]
          have fault := (TokenStream.pull_error_iff after
            (TokenStream.look_of_pull pulled).2).mpr read
          exact (others error after.pull.2 (Prod.ext fault rfl)).elim
      · rfl

end Progress

/-- Parsing a text is following its reading. -/
theorem parse_eq_follow (source : String) :
    Expr.parse source = (Progress.operand []).follow maxDepth
      (Reading.ofText source).lexemes (Reading.ofText source).outcome :=
  Progress.run_eq_follow maxDepth (.operand []) _ (TokenStream.isPlaced_ofText source false)

/-- Reading an expression and parsing it succeed alike. -/
theorem ofString_eq_ok_iff (source : String) (e : Expr) :
    Expr.ofString source = .ok e ↔ Expr.parse source = .ok e := by
  unfold Expr.ofString
  cases Expr.parse source <;> simp [Except.mapError]

end EdgeExpression
