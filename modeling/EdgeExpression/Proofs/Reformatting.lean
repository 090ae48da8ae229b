import EdgeExpression.CommandLine.Outcome
import EdgeExpression.Proofs.Blame
import EdgeExpression.Proofs.InputLines
import EdgeExpression.Proofs.Positions
import EdgeExpression.Proofs.RoundTrip

/-!
# Formatting what was formatted

What the command line writes when it formats standard input, it reads back as it is: as many
lines, none of them empty, each of them canonical. Two things are needed for that, besides the
round trip of a single expression.

The canonical text of an expression that was read from one line is one line again. The only
places of it where a line feed could stand are names, numerals and literals, and what these
carry stands in the line that was read; and it does not end with a carriage return, which would
be taken for a part of the line's end.

And the outcome of a run is put together from those of its expressions in order, so that all
that fails and all that is remarked does not disturb what is printed.
-/
namespace EdgeExpression

/-! ## Lines of a text -/

/-- A text that is one line, and stays it when a line feed is put behind it. -/
def IsLine (text : List Char) : Prop := '\n' ∉ text ∧ text.getLast? ≠ some '\r'

namespace Lines

/-- Text without a line feed stands in front of the first line of what follows. Proof: by
induction on the text. A carriage return in it is not followed by a line feed, for neither does
one stand in the text nor does one follow the return at its end. -/
theorem split_append {line behind : List Char} (whole : '\n' ∉ line)
    (seam : line.getLast? = some '\r' → behind.head? ≠ some '\n') :
    split (line ++ behind) = line.foldr prepend (split behind) := by
  induction line with
  | nil => rfl
  | cons c line induction =>
      obtain ⟨notFeed, whole⟩ := List.ne_and_not_mem_of_not_mem_cons whole
      have inside : ∀ tail, c = '\r' → line ++ behind = '\n' :: tail → False := by
        rintro tail rfl begins
        cases line with
        | nil => exact seam rfl (by simp [show behind = '\n' :: tail from begins])
        | cons d line =>
            obtain ⟨rfl, _⟩ := List.cons.inj begins
            simp at whole
      have later : line.getLast? = some '\r' → behind.head? ≠ some '\n' := by
        intro last
        exact seam (by simp [List.getLast?_cons, last])
      rw [List.cons_append, split_cons inside notFeed.symm, induction whole later]
      rfl

/-- A line is cut off at the line feed behind it. -/
theorem split_line {line : List Char} (isLine : IsLine line) (rest : List Char) :
    split (line ++ '\n' :: rest) = line :: split rest := by
  have cut : split ('\n' :: rest) = [] :: split rest := rfl
  rw [split_append isLine.1 fun last => absurd last isLine.2, cut, foldr_prepend_cons,
    List.append_nil]

/-- Lines with a line feed behind each are the lines of the whole text. -/
theorem ofText_join {texts : List String} (lines : ∀ text ∈ texts, IsLine text.toList) :
    ofText (String.join (texts.map (· ++ "\n"))) = texts := by
  induction texts with
  | nil => rfl
  | cons text texts induction =>
      obtain ⟨first, others⟩ := List.forall_mem_cons.mp lines
      have shown : (String.join ((text :: texts).map (· ++ "\n"))).toList =
          text.toList ++ '\n' :: (String.join (texts.map (· ++ "\n"))).toList := by
        simp
      rw [ofText, shown, split_line first, List.map_cons, String.ofList_toList]
      exact congrArg (text :: ·) (induction others)

/-- No line of a text holds a line feed. -/
theorem feed_notMem_of_mem_split {line text : List Char} (member : line ∈ split text) :
    '\n' ∉ line := by
  induction text using split.induct generalizing line with
  | case1 => cases member
  | case2 rest induction | case3 rest induction =>
      rcases List.mem_cons.mp member with rfl | later
      · simp
      · exact induction later
  | case4 c rest notReturn notFeed induction =>
      rw [split_cons notReturn notFeed] at member
      cases behind : split rest with
      | nil =>
          obtain rfl : line = [c] := by simpa [behind, prepend] using member
          exact List.not_mem_cons_of_ne_of_not_mem (Ne.symm notFeed) List.not_mem_nil
      | cons first others =>
          rw [behind] at induction member
          rcases List.mem_cons.mp member with rfl | later
          · exact List.not_mem_cons_of_ne_of_not_mem (Ne.symm notFeed)
              (induction List.mem_cons_self)
          · exact induction (List.mem_cons_of_mem _ later)

/-- No line of a text holds a line feed. -/
theorem feed_notMem_of_mem_ofText {line text : String} (member : line ∈ ofText text) :
    '\n' ∉ line.toList := by
  obtain ⟨own, cut, rfl⟩ := List.mem_map.mp member
  rw [String.toList_ofList]
  exact feed_notMem_of_mem_split cut

end Lines

/-! ## Canonical text is one line -/

/-- No digit is white space. -/
theorem isWhiteSpace_of_isDigit {c : Char} (digit : c.isDigit = true) :
    isWhiteSpace c = false := by
  obtain ⟨least, most⟩ : 48 ≤ c.toNat ∧ c.toNat ≤ 57 := by
    simpa [Char.isDigit, UInt32.le_iff_toNat_le] using digit
  simp [isWhiteSpace, whiteSpaceRanges]
  omega

/-- No character of a numeral is white space. -/
theorem IsNumeral.isWhiteSpace {text : List Char} (numeral : IsNumeral text) {c : Char}
    (member : c ∈ text) : isWhiteSpace c = false := by
  rcases numeral.joins c member with rfl | digit
  · decide
  · exact isWhiteSpace_of_isDigit digit

namespace Lexeme

variable {lexeme : Lexeme}

/-- A line feed in the text of a lexeme is one in what it carries. -/
theorem feed_mem_cargo (feed : '\n' ∈ lexeme.spaced) : '\n' ∈ lexeme.cargo.toList := by
  cases lexeme with
  | literal content =>
      simp only [spaced, spelling, quoted] at feed
      split at feed <;> simpa [cargo] using feed
  | comparison operator => cases operator <;> simp [spaced, Comparison.symbol] at feed
  | connective operator => cases operator <;> simp [spaced, Connective.symbol] at feed
  | number | call | «variable» | member => simpa [spaced, spelling, cargo] using feed
  | _ => simp [spaced, spelling, cargo, negationSymbol] at feed

/-- Canonical spelling brings no line feed. -/
theorem feed_mem_of_canonical (feed : '\n' ∈ lexeme.canonical.cargo.toList) :
    '\n' ∈ lexeme.cargo.toList := by
  cases lexeme with
  | number numeral =>
      have white := (isNumeral_ofInt (Decimal.value numeral.toList)).isWhiteSpace feed
      cases white
  | _ => exact feed

/-- No lexeme ends with a carriage return. -/
theorem Legible.getLast?_spaced (legible : lexeme.Legible) :
    lexeme.spaced.getLast? ≠ some '\r' := by
  cases lexeme with
  | literal content =>
      simp only [spaced, spelling, quoted]
      split
      · rw [List.getLast?_append_of_ne_nil _ (by simp)]
        decide
      · rw [List.getLast?_concat]
        decide
  | number numeral =>
      intro last
      have white := legible.isWhiteSpace (List.mem_of_mem_getLast? last)
      cases white
  | comparison | connective =>
      rw [spaced, List.getLast?_concat]
      decide
  | call | «variable» | member =>
      simp only [spaced, spelling]
      rw [List.getLast?_concat]
      decide
  | _ => simp [spaced, spelling, cargo, negationSymbol]

/-- No lexeme begins with white space. -/
theorem Legible.isWhiteSpace_leadChar (legible : lexeme.Legible) :
    isWhiteSpace lexeme.leadChar = false := by
  cases lexeme with
  | literal content =>
      simp only [leadChar, spelling, quoted]
      split <;> rfl
  | number numeral =>
      obtain ⟨c, rest, split⟩ := List.exists_cons_of_ne_nil legible.spelling_ne_nil
      have begins : leadChar (number numeral) = c := by rw [leadChar, split]; rfl
      have own : numeral.toList = c :: rest := split
      rw [begins]
      exact legible.isWhiteSpace (own ▸ List.mem_cons_self)
  | comparison operator => cases operator <;> rfl
  | connective operator => cases operator <;> rfl
  | _ => rfl

end Lexeme

/-- The text of legible lexemes is one line if nothing that they carry holds a line feed. -/
theorem isLine_spacedText {ls : List Lexeme} (legible : ∀ lexeme ∈ ls, lexeme.Legible)
    (whole : ∀ lexeme ∈ ls, '\n' ∉ lexeme.cargo.toList) : IsLine (spacedText ls).toList := by
  rw [spacedText, String.toList_ofList]
  constructor
  · intro feed
    obtain ⟨lexeme, member, inside⟩ := List.mem_flatMap.mp feed
    exact whole lexeme member (Lexeme.feed_mem_cargo inside)
  · rcases List.eq_nil_or_concat ls with rfl | ⟨front, last, rfl⟩
    · simp
    · have atEnd : last.Legible := legible last (by simp)
      rw [List.concat_eq_append, List.flatMap_append, List.flatMap_singleton,
        List.getLast?_append_of_ne_nil _ atEnd.spaced_ne_nil]
      exact atEnd.getLast?_spaced

/-- What a lexeme carries stands in the text that it is found in. -/
theorem Lexeme.FoundAt.cargo_subset {lexeme : Lexeme} {text : List Char} {start : Position}
    (found : lexeme.FoundAt text start) : lexeme.cargo.toList ⊆ text := by
  obtain ⟨before, own, behind, rfl, _, _, scanned⟩ := found
  obtain ⟨left, right, rfl⟩ := (scan_found_written scanned).exists_cargo
  intro c member
  simp [member]

/-- Every lexeme of a text is found somewhere in it. -/
theorem ConsistsOf.exists_foundAt {source : String} {ls : List Lexeme}
    (consists : ConsistsOf source ls) {lexeme : Lexeme} (member : lexeme ∈ ls) :
    ∃ start, lexeme.FoundAt source.toList start := by
  obtain ⟨rfl, _⟩ := (consistsOf_iff_lists source ls).mp consists
  obtain ⟨entry, read, rfl⟩ := List.mem_map.mp member
  exact ⟨entry.2, Cursor.reading_foundAt (.ofList source.toList) rfl (seam_nil _) entry read⟩

/-- The canonical text of an expression that was read from one line is one line. -/
theorem isLine_render {line : String} {e : Expr} (whole : '\n' ∉ line.toList)
    (parsed : Expr.parse line = .ok e) : IsLine e.render.toList := by
  obtain ⟨ls, consists, derivation⟩ := (parse_eq_ok_iff line e).mp parsed
  have strikes : Strikes (ls.map Lexeme.canonical) e.lexemes := strikes_of_derives derivation
  refine isLine_spacedText (legible_lexemes_of_derives derivation consists.legible) ?_
  intro lexeme member feed
  obtain ⟨source, present, rfl⟩ := List.mem_map.mp (strikes.subset member)
  obtain ⟨start, found⟩ := consists.exists_foundAt present
  exact whole (found.cargo_subset (Lexeme.feed_mem_of_canonical feed))

/-- Every expression has a lexeme. -/
theorem Expr.lexemes_ne_nil (e : Expr) : e.lexemes ≠ [] := by
  cases e <;> simp [lexemes]

/-- A text that stands for an expression is no empty line. -/
theorem isEmptyLine_of_parse {line : String} {e : Expr} (parsed : Expr.parse line = .ok e) :
    isEmptyLine line = false := by
  obtain ⟨ls, consists, derivation⟩ := (parse_eq_ok_iff line e).mp parsed
  have nonempty : ls ≠ [] := by
    rintro rfl
    have few := length_lexemes_le consists parsed
    exact e.lexemes_ne_nil (List.length_eq_zero_iff.mp (Nat.le_zero.mp few))
  obtain ⟨first, rest, rfl⟩ := List.exists_cons_of_ne_nil nonempty
  obtain ⟨start, found⟩ := consists.exists_foundAt List.mem_cons_self
  have shown : isWhiteSpace first.leadChar = false :=
    (consists.legible first List.mem_cons_self).isWhiteSpace_leadChar
  obtain ⟨before, behind, split, _⟩ := found.standsAt
  simp [isEmptyLine, split, shown]

namespace CommandLine

/-! ## Canonical texts -/

/-- The canonical text of the expression that a text stands for, if it stands for one. -/
def canonical? (text : String) : Option String := (Expr.ofString text).toOption.map Expr.render

/-- A text is canonical if it stands for an expression and is its canonical text. -/
def IsCanonical (text : String) : Prop := canonical? text = some text

/-- The canonical text of a text is that of the expression which it stands for. -/
theorem canonical?_eq_some_iff {text shown : String} :
    canonical? text = some shown ↔ ∃ e, Expr.parse text = .ok e ∧ e.render = shown := by
  cases parsed : Expr.parse text with
  | ok e => simp [canonical?, Expr.ofString, parsed, Except.mapError, Except.toOption]
  | error failure => simp [canonical?, Expr.ofString, parsed, Except.mapError, Except.toOption]

/-- A canonical text is its own canonical text. -/
theorem isCanonical_of_canonical? {text shown : String} (found : canonical? text = some shown) :
    IsCanonical shown := by
  obtain ⟨e, parsed, rfl⟩ := canonical?_eq_some_iff.mp found
  obtain ⟨legible, shallow⟩ := (exists_parse_iff e).mp ⟨text, parsed⟩
  exact canonical?_eq_some_iff.mpr ⟨e, parse_render legible shallow, rfl⟩

/-- No canonical text is an empty line. -/
theorem IsCanonical.isEmptyLine {text : String} (canonical : IsCanonical text) :
    isEmptyLine text = false := by
  obtain ⟨e, parsed, _⟩ := canonical?_eq_some_iff.mp canonical
  exact isEmptyLine_of_parse parsed

/-- The canonical texts of the expressions on the lines of a text are lines. -/
theorem isLine_of_canonical? {input line shown : String} (kept : line ∈ inputExpressions input)
    (found : canonical? line = some shown) : IsLine shown.toList := by
  obtain ⟨e, parsed, rfl⟩ := canonical?_eq_some_iff.mp found
  have cut : line ∈ Lines.ofText input := List.mem_of_mem_filter kept
  exact isLine_render (Lines.feed_notMem_of_mem_ofText cut) parsed

/-! ## The outcome of a run -/

/-- A text with a canonical text is used as an expression with this text. -/
theorem withExpr_of_canonical? {text shown : String} (found : canonical? text = some shown) :
    ∃ e : Expr, e.render = shown ∧ ∀ use, withExpr text use = use e := by
  obtain ⟨e, parsed, shown⟩ := canonical?_eq_some_iff.mp found
  exact ⟨e, shown, fun use => by simp [withExpr, Expr.ofString, parsed, Except.mapError]⟩

/-- Nothing is joined to nothing. -/
theorem join_map_empty {α : Type} (list : List α) :
    String.join (list.map fun _ => "") = "" := by
  induction list with
  | nil => rfl
  | cons first rest induction => rw [List.map_cons, String.join_cons, induction]; rfl

namespace Outcome

/-- Outcomes are put together in any grouping. -/
theorem append_assoc (first second third : Outcome) :
    (first.append second).append third = first.append (second.append third) := by
  simp [append, Nat.max_assoc, String.append_assoc]

/-- Handling nothing first adds nothing. -/
theorem empty_append (outcome : Outcome) : empty.append outcome = outcome := by
  simp [append, empty]

/-- Handling nothing last adds nothing. -/
theorem append_empty (outcome : Outcome) : outcome.append empty = outcome := by
  simp [append, empty]

/-- The outcome of what came first stands in front of all others. -/
theorem foldl_append (first : Outcome) (outcomes : List Outcome) :
    outcomes.foldl append first = first.append (outcomes.foldl append empty) := by
  induction outcomes generalizing first with
  | nil => exact (append_empty first).symm
  | cons second rest induction =>
      rw [List.foldl_cons, List.foldl_cons, induction, induction (empty.append second),
        empty_append, append_assoc]

end Outcome

namespace Action

/-- The outcome for the first expression comes first. -/
theorem performAll_cons (action : Action) (expression : String) (rest : List String)
    (hidden : Char → Bool) :
    action.performAll (expression :: rest) hidden =
      (action.perform expression hidden).append (action.performAll rest hidden) := by
  rw [performAll, List.map_cons, List.foldl_cons, Outcome.foldl_append, Outcome.empty_append]
  rfl

/-- If no expression fails, the run does not, and everything printed and remarked is joined. -/
theorem performAll_of_success {action : Action} {expressions : List String}
    {printed noted : String → String}
    (success : ∀ expression ∈ expressions,
      action.perform expression = ⟨0, printed expression, noted expression⟩) :
    action.performAll expressions =
      ⟨0, String.join (expressions.map printed), String.join (expressions.map noted)⟩ := by
  induction expressions with
  | nil => rfl
  | cons expression rest induction =>
      obtain ⟨first, others⟩ := List.forall_mem_cons.mp success
      rw [performAll_cons, first, induction others]
      simp [Outcome.append]

/-- What is printed is the canonical texts of those expressions that have one, each on its
line. -/
theorem stdout_performAll_format (expressions : List String) :
    (format.performAll expressions).stdout =
      String.join ((expressions.filterMap canonical?).map (· ++ "\n")) := by
  induction expressions with
  | nil => rfl
  | cons expression rest induction =>
      have split : (format.performAll (expression :: rest)).stdout =
          (format.perform expression).stdout ++ (format.performAll rest).stdout :=
        congrArg Outcome.stdout (performAll_cons format expression rest _)
      rw [split, induction]
      cases parsed : Expr.ofString expression with
      | ok e => simp [perform, withExpr, canonical?, parsed, Outcome.printed, Except.toOption]
      | error failure =>
          simp [perform, withExpr, canonical?, parsed, Outcome.failed, Except.toOption]

/-- A canonical text is printed as it is. -/
theorem perform_format_of_isCanonical {text : String} (canonical : IsCanonical text) :
    format.perform text = ⟨0, text ++ "\n", ""⟩ := by
  obtain ⟨e, shown, used⟩ := withExpr_of_canonical? canonical
  rw [perform, used, shown]
  rfl

/-- A canonical text is remarked to be formatted. -/
theorem perform_check_of_isCanonical {text : String} (canonical : IsCanonical text) :
    check.perform text = ⟨0, "", remark text "formatted"⟩ := by
  obtain ⟨e, shown, used⟩ := withExpr_of_canonical? canonical
  rw [perform, used, if_pos shown]
  rfl

/-- A run on standard input is one on its expressions. -/
theorem outcome_of_valid (action : Action) {stdin : ByteArray} {input : String}
    (valid : String.fromUTF8? stdin = some input) (hidden : Char → Bool) :
    action.outcome [] stdin hidden = action.performAll (inputExpressions input) hidden := by
  rw [outcome, handled?_nil, valid, Option.map_some]

end Action

/-- Canonical texts of one line each are what is read from them. -/
theorem inputExpressions_join {texts : List String}
    (canonical : ∀ text ∈ texts, IsCanonical text) (lines : ∀ text ∈ texts, IsLine text.toList) :
    inputExpressions (String.join (texts.map (· ++ "\n"))) = texts := by
  rw [inputExpressions, Lines.ofText_join lines]
  exact List.filter_eq_self.mpr fun text member => by simp [(canonical text member).isEmptyLine]

/-- What formatting prints stays as it is. Let standard input be valid UTF-8, whatever its lines
are. Then formatting prints as many lines as there are lines in the input that stand for an
expression, in the same order: their canonical texts. A check of the output succeeds and remarks
that each line is formatted, and formatting it again prints it once more and tells no failure. -/
theorem format_output_stays {stdin : ByteArray} {input : String}
    (valid : String.fromUTF8? stdin = some input) :
    let texts := (inputExpressions input).filterMap canonical?
    let out := (Action.format.outcome [] stdin).stdout
    (Lines.ofText out = texts ∧ out = String.join (texts.map (· ++ "\n"))) ∧
      Action.check.outcome [] out.toUTF8 =
        ⟨0, "", String.join (texts.map (remark · "formatted"))⟩ ∧
      Action.format.outcome [] out.toUTF8 = ⟨0, out, ""⟩ := by
  intro texts out
  have shown : out = String.join (texts.map (· ++ "\n")) := by
    have run := Action.format.outcome_of_valid valid Quoted.isHidden
    exact (congrArg Outcome.stdout run).trans (Action.stdout_performAll_format _)
  have canonical : ∀ text ∈ texts, IsCanonical text := by
    intro text member
    obtain ⟨line, _, found⟩ := List.mem_filterMap.mp member
    exact isCanonical_of_canonical? found
  have lines : ∀ text ∈ texts, IsLine text.toList := by
    intro text member
    obtain ⟨line, kept, found⟩ := List.mem_filterMap.mp member
    exact isLine_of_canonical? kept found
  have readBack : inputExpressions out = texts := shown ▸ inputExpressions_join canonical lines
  refine ⟨⟨shown ▸ Lines.ofText_join lines, shown⟩, ?_, ?_⟩
  · have quiet := Action.performAll_of_success fun text member =>
      Action.perform_check_of_isCanonical (canonical text member)
    rw [Action.outcome_of_valid _ (fromUTF8?_toUTF8 out), readBack, quiet, join_map_empty]
  · have same := Action.performAll_of_success fun text member =>
      Action.perform_format_of_isCanonical (canonical text member)
    rw [Action.outcome_of_valid _ (fromUTF8?_toUTF8 out), readBack, same, join_map_empty, ← shown]

/-- Of four lines one is empty, though it holds a no-break space, and one stands for no
expression. -/
theorem format_output_stays_for_mixed_lines :
    let out := "1\n'a\r' == 'b'\n"
    (Action.format.outcome [] "(1)\r\n\u00a0\n1 +\n'a\r'=='b'".toUTF8).stdout = out ∧
      Action.check.outcome [] out.toUTF8 = ⟨0, "", "1: formatted\n'a\r' == 'b': formatted\n"⟩ ∧
      Action.format.outcome [] out.toUTF8 = ⟨0, out, ""⟩ := by
  intro out
  have texts : (inputExpressions "(1)\r\n\u00a0\n1 +\n'a\r'=='b'").filterMap canonical? =
      ["1", "'a\r' == 'b'"] := by decide +kernel
  obtain ⟨⟨_, shown⟩, checked, again⟩ := format_output_stays
    (fromUTF8?_toUTF8 "(1)\r\n\u00a0\n1 +\n'a\r'=='b'")
  rw [texts] at shown checked
  rw [shown] at checked again ⊢
  exact ⟨rfl, checked, again⟩

/-- The commands alone act on standard input. -/
example : Request.ofArguments ["fmt"] = .run .format [] ∧
    Request.ofArguments ["check"] = .run .check [] := by decide

end CommandLine
end EdgeExpression
