import EdgeExpression.Proofs.Faults

/-!
# Errors point at what they name

An error names a character, the end of the text, or a numeral, and gives the place where it
is. This is checked here against the source alone: at the given byte offset the source shows
the character; or has ended; or shows the numeral, which is not part of a longer one.

The places come from three sides: where a scan was stuck, where a lexeme began, and where
the text ended. For lexemes more is kept in mind while reading, namely that no numeral goes
on across the place where one begins.
-/
namespace EdgeExpression

/-! ## What an error says -/

/-- A numeral between two texts that is not part of a longer one. -/
def IsWholeNumeral (before numeral behind : List Char) : Prop :=
  IsNumeral numeral ∧ ∀ outerLeft left right outerRight, before = outerLeft ++ left →
    behind = right ++ outerRight → IsNumeral (left ++ numeral ++ right) → left = [] ∧ right = []

/-- What an error of the lexemes says is so in the source. -/
def LexError.Fits (source : String) (error : LexError) : Prop :=
  match error.cause with
  | .unexpectedChar c => StandsAt source error.position.offset [c]
  | .unexpectedEnd => error.position.offset = source.utf8ByteSize

/-- What an error of parsing says is so in the source. -/
def ParseError.Fits (source : String) (error : ParseError) : Prop :=
  match error.cause with
  | .lex cause => LexError.Fits source ⟨cause, error.position⟩
  | .unexpectedChar c => StandsAt source error.position.offset [c]
  | .unexpectedEnd => error.position.offset = source.utf8ByteSize
  | .outOfRange numeral =>
      (∃ before behind, source.toList = before ++ (numeral.toList ++ behind) ∧
        (String.ofList before).utf8ByteSize = error.position.offset ∧
        IsWholeNumeral before numeral.toList behind) ∧
      ¬(-2 ^ 63 ≤ Decimal.value numeral.toList ∧ Decimal.value numeral.toList ≤ 2 ^ 63 - 1)

/-- What either error says is so in the source. -/
def Error.Fits (source : String) : Error → Prop
  | .lex error => error.Fits source
  | .parse error => error.Fits source

/-! ## Numerals that go on -/

/-- No numeral goes on from one text into the next. -/
def Seam (before behind : List Char) : Prop :=
  ∀ c ∈ before.getLast?, c = '-' ∨ c.isDigit = true → ∀ d ∈ behind.head?, d.isDigit = false

variable {before own blanks behind rest : List Char} {value : Lexeme}

/-- At the beginning of a text there is no numeral to go on. -/
theorem seam_nil (behind : List Char) : Seam [] behind := by simp [Seam]

/-- Blanks keep numerals apart. -/
theorem Seam.skip (seam : Seam before (blanks ++ rest))
    (blank : ∀ c ∈ blanks, isBlank c = true) : Seam (before ++ blanks) rest := by
  rcases List.eq_nil_or_concat blanks with rfl | ⟨first, last, rfl⟩
  · simpa using seam
  · intro c end_ joins
    obtain rfl : last = c := by simpa using end_
    have space : isBlank last = true := blank last (by simp)
    simp only [isBlank, Bool.or_eq_true, beq_iff_eq] at space
    rcases space with ((rfl | rfl) | rfl) | rfl <;> simp at joins

/-- A lexeme is read to its end, so no numeral goes on behind it. -/
theorem Seam.of_scan (found : scan (own ++ rest) = .found value own) (before : List Char) :
    Seam (before ++ own) rest := by
  intro c last joins d head
  rw [List.getLast?_append_of_ne_nil _ (scan_read_ne_nil found)] at last
  obtain ⟨notMinus, digit⟩ := (scan_found_written found).last (scan_found_legible found) last
  obtain ⟨numeral, rfl⟩ := digit (joins.resolve_left notMinus)
  exact scan_found_boundary found d head

/-- In a numeral every character behind the first one is a digit. -/
theorem IsNumeral.digits_behind {first second : List Char} (numeral : IsNumeral (first ++ second))
    (nonempty : first ≠ []) : ∀ c ∈ second, c.isDigit = true := by
  obtain ⟨sign, digits, split, signed, _, all⟩ := numeral
  obtain ⟨c, tail, rfl⟩ := List.exists_cons_of_ne_nil nonempty
  intro d member
  apply all
  rcases signed with rfl | rfl
  · have same : c :: tail ++ second = digits := split
    simp [← same, member]
  · have same : tail ++ second = digits := (List.cons.inj split).2
    simp [← same, member]

/-- Every character of a numeral is one that a numeral can go on from. -/
theorem IsNumeral.joins {text : List Char} (numeral : IsNumeral text) :
    ∀ c ∈ text, c = '-' ∨ c.isDigit = true := by
  obtain ⟨sign, digits, rfl, signed, _, all⟩ := numeral
  intro c member
  rcases List.mem_append.mp member with inSign | inDigits
  · rcases signed with rfl | rfl
    · cases inSign
    · exact .inl (List.mem_singleton.mp inSign)
  · exact .inr (all c inDigits)

/-- A numeral that is found is whole if no numeral goes on across the place where it
begins. -/
theorem isWholeNumeral_of_scan {numeral : String}
    (found : scan (own ++ behind) = .found (.number numeral) own)
    (seam : Seam before (own ++ behind)) : IsWholeNumeral before own behind := by
  obtain rfl : own = numeral.toList := scan_found_written found
  have nonempty := scan_read_ne_nil found
  refine ⟨scan_found_legible found, ?_⟩
  rintro outerLeft left right outerRight rfl rfl longer
  constructor
  · rcases List.eq_nil_or_concat left with rfl | ⟨init, c, rfl⟩
    · rfl
    · obtain ⟨d, tail, first⟩ := List.exists_cons_of_ne_nil nonempty
      rw [List.concat_eq_append, List.append_assoc] at longer
      have joins := longer.joins c (by simp)
      have digit := longer.digits_behind (by simp) d (by simp [first])
      have refused := seam c (by simp) joins d (by simp [first])
      simp [refused] at digit
  · by_contra extended
    obtain ⟨d, tail, rfl⟩ := List.exists_cons_of_ne_nil extended
    have digit := longer.digits_behind (by simp [nonempty]) d (by simp)
    have refused : d.isDigit = false := scan_found_boundary found d rfl
    simp [refused] at digit

/-! ## Places of lexemes, of the end and of faults -/

/-- A lexeme is found at a position of a text, and no numeral goes on across it. -/
def Lexeme.FoundAt (value : Lexeme) (text : List Char) (start : Position) : Prop :=
  ∃ before own behind, text = before ++ (own ++ behind) ∧ start = Position.origin.past before ∧
    Seam before (own ++ behind) ∧ scan (own ++ behind) = .found value own

/-- The first character of a lexeme stands where the lexeme is found. -/
theorem Lexeme.FoundAt.standsAt {source : String} {start : Position}
    (found : value.FoundAt source.toList start) :
    StandsAt source start.offset [value.leadChar] := by
  obtain ⟨before, own, behind, split, rfl, _, scanned⟩ := found
  obtain ⟨tail, rfl⟩ := exists_leadChar_of_scan scanned
  exact ⟨before, tail ++ behind, split, (Position.offset_origin_past before).symm⟩

namespace Cursor

/-- Every lexeme of a reading is found where the reading says. -/
theorem reading_foundAt (cursor : Cursor) {passed : List Char}
    (position : cursor.position = Position.origin.past passed) (seam : Seam passed cursor.rest) :
    ∀ entry ∈ cursor.reading.lexemes, entry.1.FoundAt (passed ++ cursor.rest) entry.2 := by
  fun_induction reading cursor generalizing passed with
  | case1 cursor value start behind seen induction =>
      obtain ⟨blanks, own, passes, rfl, found⟩ := look_eq_lexeme_iff.mp seen
      have begins : Seam (passed ++ blanks) (own ++ behind.rest) :=
        Seam.skip (passes.text ▸ seam) passes.blank
      have goesOn : behind.position = Position.origin.past (passed ++ blanks ++ own) := by
        rw [passes.position, position, Position.past_append, Position.past_append]
      have later := induction goesOn (.of_scan found _)
      have split : passed ++ cursor.rest = (passed ++ blanks) ++ (own ++ behind.rest) := by
        simp [passes.text]
      refine List.forall_mem_cons.mpr ⟨?_, ?_⟩
      · exact ⟨passed ++ blanks, own, behind.rest, split,
          by rw [position, Position.past_append], begins, found⟩
      · simpa [passes.text] using later
  | case2 | case3 => simp

/-- A reading that ends well ends behind the whole text. -/
theorem IsWithin.ending {cursor : Cursor} {text : List Char} (within : cursor.IsWithin text)
    {ending : Position} (ends : cursor.reading.outcome = .ok ending) :
    ending = Position.origin.past text := by
  fun_induction reading cursor with
  | case1 cursor value start behind seen induction =>
      obtain ⟨blanks, own, passes, _⟩ := look_eq_lexeme_iff.mp seen
      exact induction (passes.isWithin within) ends
  | case2 cursor behind seen =>
      obtain ⟨blanks, passes, finished⟩ := of_look_eq_ending seen
      obtain ⟨passed, rfl, position⟩ := passes.isWithin within
      obtain rfl := Except.ok.inj ends
      rw [position, finished, List.append_nil]
  | case3 => cases ends

/-- Where a reader stopped, it blames what stands there. -/
theorem IsWithin.stoppedAt_fits {cursor : Cursor} {source : String}
    (within : cursor.IsWithin source.toList) : (LexError.stoppedAt cursor).Fits source := by
  obtain ⟨passed, split, position⟩ := within
  unfold LexError.stoppedAt
  split
  · next finished =>
      rw [finished, List.append_nil] at split
      have whole : source = String.ofList passed := by rw [← split, String.ofList_toList]
      change cursor.position.offset = source.utf8ByteSize
      rw [position, Position.offset_origin_past, whole]
  · next c rest left =>
      rw [left] at split
      exact ⟨passed, rest, split, by rw [position, Position.offset_origin_past]⟩

/-- The fault that ends a reading is one of the source. -/
theorem IsWithin.fault_fits {cursor : Cursor} {source : String}
    (within : cursor.IsWithin source.toList) {error : LexError}
    (faulty : cursor.reading.outcome = .error error) : error.Fits source := by
  fun_induction reading cursor with
  | case1 cursor value start behind seen induction =>
      obtain ⟨blanks, own, passes, _⟩ := look_eq_lexeme_iff.mp seen
      exact induction (passes.isWithin within) faulty
  | case2 => cases faulty
  | case3 cursor stopped seen =>
      obtain ⟨blanks, read, passes, _⟩ := of_look_eq_fault seen
      obtain rfl := Except.error.inj faulty
      exact (passes.isWithin within).stoppedAt_fits

end Cursor

/-! ## Tokens -/

namespace TokenStream

/-- Whatever a stream in its place hands out was pulled from a stream in its place. -/
theorem IsPlaced.pulled {stream : TokenStream} (placed : stream.IsPlaced)
    {result : Except LexError Token} (handedOut : result ∈ stream.remaining) :
    ∃ earlier after : TokenStream, earlier.source = stream.source ∧ earlier.IsPlaced ∧
      earlier.pull = (result, after) := by
  fun_induction remaining stream with
  | case1 => cases handedOut
  | case2 stream first after handed induction =>
      obtain ⟨_, behind, pulled, rfl⟩ := pull_of_next handed
      have place : behind.IsPlaced := placed.pull pulled
      have source : behind.source = stream.source := (pull_passes pulled).2.1
      rcases List.mem_cons.mp handedOut with rfl | later
      · exact ⟨stream, behind, rfl, placed, pulled⟩
      · obtain ⟨earlier, last, same, found⟩ := induction place later
        exact ⟨earlier, last, same.trans source, found⟩

end TokenStream

/-- A token of the kind of comparisons carries the symbol of one. -/
theorem Content.ofSymbol?_of_comparison {content : Content}
    (kind : content.kindName = "BinaryOperator") :
    ∃ operator, Comparison.ofSymbol? content.cargo = some operator := by
  rcases content with value | _ | _
  · cases value with
    | comparison operator => exact ⟨operator, Comparison.ofSymbol?_symbol operator⟩
    | _ => simp [kindName, Lexeme.kindName] at kind
  · simp [kindName] at kind
  · simp [kindName] at kind

/-- A token of the kind of connectives carries the symbol of one. -/
theorem Content.ofSymbol?_of_connective {content : Content}
    (kind : content.kindName = "LogicalOperator") :
    ∃ operator, Connective.ofSymbol? content.cargo = some operator := by
  rcases content with value | _ | _
  · cases value with
    | connective operator => exact ⟨operator, Connective.ofSymbol?_symbol operator⟩
    | _ => simp [kindName, Lexeme.kindName] at kind
  · simp [kindName] at kind
  · simp [kindName] at kind

/-! ## Errors -/

/-- What cutting a source into tokens blames is so in the source. -/
theorem fits_of_tokenize {source : String} {mapped : Bool} {error : LexError}
    (failed : tokenize source mapped = .error error) : error.Fits source :=
  (Cursor.isWithin_ofList source.toList).fault_fits
    ((tokenize_eq_error_iff source mapped error).mp failed)

/-- Each of the four ways in which parsing fails blames what stands in the source. -/
theorem fits_of_parse {source : String} {failure : ParseError}
    (failed : Expr.parse source = .error failure) : failure.Fits source := by
  have within := Cursor.isWithin_ofList source.toList
  have foundAt := Cursor.reading_foundAt (.ofList source.toList) rfl (seam_nil _)
  cases fails_of_parse failed with
  | fault error faulty => exact within.fault_fits faulty
  | incomplete ending reached ends =>
      change ending.offset = source.utf8ByteSize
      rw [within.ending ends, Position.offset_origin_past, String.ofList_toList]
  | refused before behind value start reached split =>
      have member : (value, start) ∈ (Reading.ofText source).lexemes := by simp [split]
      exact (foundAt _ member).standsAt
  | outOfRange before behind numeral start reached split _ _ unread =>
      have member : (.number numeral, start) ∈ (Reading.ofText source).lexemes := by simp [split]
      obtain ⟨front, own, rest, text, rfl, seam, scanned⟩ := foundAt _ member
      obtain rfl : own = numeral.toList := scan_found_written scanned
      refine ⟨⟨front, rest, text, (Position.offset_origin_past front).symm, ?_⟩, ?_⟩
      · exact isWholeNumeral_of_scan scanned seam
      · exact (Decimal.toInt64?_eq_none_iff numeral).mp unread

/-- What reading an expression blames is so in the source. -/
theorem fits_of_ofString {source : String} {failure : Error}
    (failed : Expr.ofString source = .error failure) : failure.Fits source := by
  unfold Expr.ofString at failed
  cases parsed : Expr.parse source with
  | ok e => simp [parsed, Except.mapError] at failed
  | error error =>
      have fits := fits_of_parse parsed
      obtain rfl : error.toError = failure := by simpa [parsed, Except.mapError] using failed
      rcases error with ⟨cause, position⟩
      cases cause <;> exact fits

/-- Every error points at exactly what it names: a character at its byte offset, the end of
the source at its length, or a whole numeral that is out of range. So whenever a lexeme is
reported, the character that is shown stands in the source, and no operator is ever met
whose symbol is unknown. -/
theorem errors_fit_source (source : String) :
    (∀ mapped error, tokenize source mapped = .error error → error.Fits source) ∧
    (∀ failure, Expr.parse source = .error failure → failure.Fits source) ∧
    (∀ failure, Expr.ofString source = .error failure → failure.Fits source) ∧
    (∀ mapped token, .ok token ∈ (TokenStream.ofText source mapped).remaining →
      (∀ value, token.content = .lexeme value →
        charAt source.toList token.position.offset = some value.leadChar) ∧
      (token.content.kindName = "BinaryOperator" →
        ∃ operator, Comparison.ofSymbol? token.content.cargo = some operator) ∧
      (token.content.kindName = "LogicalOperator" →
        ∃ operator, Connective.ofSymbol? token.content.cargo = some operator)) := by
  refine ⟨fun _ _ => fits_of_tokenize, fun _ => fits_of_parse, fun _ => fits_of_ofString, ?_⟩
  intro mapped token handedOut
  refine ⟨?_, Content.ofSymbol?_of_comparison, Content.ofSymbol?_of_connective⟩
  intro value content
  rcases token with ⟨_, position, raw⟩
  obtain rfl := content
  obtain ⟨earlier, after, same, placed, pulled⟩ :=
    (TokenStream.isPlaced_ofText source mapped).pulled handedOut
  have shown := Cursor.charAt_of_look_eq_lexeme placed (TokenStream.look_of_pull pulled).1
  rwa [same] at shown

/-- Behind a character of two bytes an operand too many is pointed at by its byte offset,
and so is the end, which comes directly behind a dollar sign. -/
theorem errors_fit_source_behind_accent :
    tokenize "'é' 2 $" true = .error ⟨.unexpectedEnd, ⟨8, 0, 7⟩⟩ ∧
      LexError.Fits "'é' 2 $" ⟨.unexpectedEnd, ⟨8, 0, 7⟩⟩ ∧
      Expr.parse "'é' 2 $" = .error ⟨.unexpectedChar '2', ⟨5, 0, 4⟩⟩ ∧
      ParseError.Fits "'é' 2 $" ⟨.unexpectedChar '2', ⟨5, 0, 4⟩⟩ := by
  have faulty : tokenize "'é' 2 $" true = .error ⟨.unexpectedEnd, ⟨8, 0, 7⟩⟩ := by decide +kernel
  have refused : Expr.parse "'é' 2 $" = .error ⟨.unexpectedChar '2', ⟨5, 0, 4⟩⟩ := by decide +kernel
  obtain ⟨lexemes, parsing, _⟩ := errors_fit_source "'é' 2 $"
  exact ⟨faulty, lexemes _ _ faulty, refused, parsing _ refused⟩

end EdgeExpression
