import Mathlib.Data.List.TakeWhile
import EdgeExpression.Proofs.LexicalGrammar
import EdgeExpression.Proofs.Reading

/-!
# The longest match

Where a text begins with no lexeme, some part of it may still be the beginning of one. A scan is
stuck behind the longest such part: it looks at one character beyond what it has read, so it is
stuck in the same place whatever comes later, and what it has read lacks no more than a few
characters.

Together with the longest lexeme this says what a token stream answers wherever it stands, behind
earlier faults as well. A pull is exactly the longest match of the lexical grammar.
-/
namespace EdgeExpression

/-- More text could make a lexeme of a text. -/
def CanBecome (text : List Char) : Prop :=
  ∃ more lexeme, LexemeAt (text ++ more) (text ++ more) lexeme

/-- The longest part of a text, from its beginning, that more text could make a lexeme of. -/
def IsLongestPart (text part : List Char) : Prop :=
  part <+: text ∧ CanBecome part ∧
    ∀ other, other <+: text → CanBecome other → other.length ≤ part.length

variable {text own rest read : List Char} {lexeme : Lexeme}

/-! ## A scan that is stuck -/

namespace Scan

variable {opening letters other : List Char} {c : Char}
  {delimiter : Char → Option (String → Lexeme)}

/-- Where a name is refused, name characters were read. -/
theorem name_stuck (stuck : name opening text delimiter = .stuck read) :
    ∃ letters, read = opening ++ letters ∧ ∀ d ∈ letters, isNameChar d = true := by
  unfold name delimited at stuck
  split at stuck
  · obtain rfl := Scan.stuck.inj stuck
    exact ⟨[], by simp, by simp⟩
  · obtain rfl := Scan.stuck.inj stuck
    exact ⟨_, rfl, List.all_eq_true.mp List.all_takeWhile⟩
  · split at stuck
    · cases stuck
    · obtain rfl := Scan.stuck.inj stuck
      exact ⟨_, rfl, List.all_eq_true.mp List.all_takeWhile⟩

/-- A name is refused in front of a character that is neither part of it nor its delimiter. -/
theorem name_stuck_iff :
    name opening (letters ++ c :: rest) delimiter = .stuck (opening ++ letters) ↔
      (∀ d ∈ letters, isNameChar d = true) ∧ isNameChar c = false ∧
        (letters ≠ [] → delimiter c = none) := by
  have whole := List.takeWhile_append_dropWhile (p := isNameChar) (l := letters ++ c :: rest)
  constructor
  · intro stuck
    unfold name delimited at stuck
    split at stuck
    · next none =>
        obtain rfl : letters = [] := by simpa using Scan.stuck.inj stuck
        refine ⟨by simp, ?_, by simp⟩
        by_contra inside
        simp [List.takeWhile_cons, inside] at none
    · next none _ =>
        obtain same : _ = letters := List.append_cancel_left (Scan.stuck.inj stuck)
        rw [same, none] at whole
        simp at whole
    · next d behind left _ =>
        split at stuck
        · cases stuck
        · next refused =>
            obtain same : _ = letters := List.append_cancel_left (Scan.stuck.inj stuck)
            rw [same, left] at whole
            obtain ⟨rfl, _⟩ := List.cons.inj (List.append_cancel_left whole)
            have outside := List.head?_dropWhile_not isNameChar (letters ++ d :: rest)
            rw [left] at outside
            refine ⟨?_, by simpa using outside, fun _ => refused⟩
            rw [← same]
            exact List.all_eq_true.mp List.all_takeWhile
  · rintro ⟨named, outside, refused⟩
    have boundary : ∀ d ∈ (c :: rest).head?, isNameChar d = false := by simpa using outside
    rw [name, takeWhile_run named boundary, dropWhile_run named boundary]
    cases letters with
    | nil => simp [delimited]
    | cons first letters => simp [delimited, refused]

/-- Every symbol has one or two characters, and what the first one is alone is a symbol as well,
unless it is an equals sign. -/
theorem symbols_short : ∀ value ∈ symbols, value.spelling.length ≤ 2 ∧
    (value.spelling.head? = some '=' ∨
      ∃ short ∈ symbols, short.spelling = value.spelling.take 1) := by
  decide

/-- No symbol begins a text where a symbol is refused, and at most an equals sign was read. -/
theorem symbol_stuck_iff : symbol text = .stuck read ↔
    (∀ value ∈ symbols, ¬ value.spelling <+: text) ∧
      read = if text.head? = some '=' then ['='] else [] := by
  unfold symbol
  split
  · next value matched =>
      have begins := List.find?_some matched
      have known := List.mem_of_find?_eq_some matched
      simp only [reduceCtorEq, false_iff, not_and]
      exact fun missing => absurd (List.isPrefixOf_iff_prefix.mp begins) (missing value known)
  · next missing =>
      have none : ∀ value ∈ symbols, ¬ value.spelling <+: text := by
        simpa [List.isPrefixOf_iff_prefix] using missing
      rw [Scan.stuck.injEq, eq_comm]
      exact (and_iff_right none).symm

/-- A literal that is not closed is read to the end of the text. -/
theorem literal_stuck (stuck : literal text = .stuck read) : read = '\'' :: text ∧
    ('\'' ∉ text ∨ ∃ behind, text = '\'' :: '\'' :: behind ∧ tripleContent? behind = none) := by
  unfold literal at stuck
  split at stuck
  · next behind =>
      split at stuck
      · cases stuck
      · next missing => exact ⟨(Scan.stuck.inj stuck).symm, .inr ⟨behind, rfl, missing⟩⟩
  · split at stuck
    · next none =>
        have free : ∀ c ∈ text, (!isQuote c) = true := List.dropWhile_eq_nil_iff.mp none
        refine ⟨(Scan.stuck.inj stuck).symm, .inl fun member => ?_⟩
        simpa [isQuote] using free _ member
    · cases stuck

/-- A content that is not closed has no three quotes in a row. -/
theorem isWritable_of_tripleContent?_eq_none (none : tripleContent? text = none) :
    IsWritable text := by
  have absent : ¬ ['\'', '\'', '\''] <:+: text := by
    induction text using tripleContent?.induct with
    | case1 text => simp [tripleContent?] at none
    | case2 c text notRun induction =>
        rw [tripleContent?.eq_2 _ _ notRun, Option.map_eq_none_iff] at none
        rw [List.infix_cons_iff]
        rintro (⟨behind, split⟩ | inside)
        · obtain ⟨rfl, rfl⟩ := List.cons.inj split
          exact notRun behind rfl rfl
        · exact induction none inside
    | case3 => simp
  intro before c behind split
  exact absurd ⟨before, c :: behind, split.symm⟩ absent

end Scan

/-- What stands at the beginning of a text that a symbol is looked for in. -/
def IsPlain (text : List Char) : Prop :=
  ∀ c ∈ text.head?, c ≠ '$' ∧ isQuote c = false ∧ c ≠ '-' ∧ c.isDigit = false

/-- What begins with neither a dollar sign, a quote, a minus nor a digit is looked for among the
symbols. -/
theorem scan_of_isPlain (plain : IsPlain text) : scan text = Scan.symbol text := by
  cases text with
  | nil => rfl
  | cons c text =>
      obtain ⟨dollar, quote, minus, digit⟩ := plain c rfl
      simp [scan, dollar, quote, minus, digit]

/-- Where a scan is stuck, a reference, a literal, a number or a symbol is refused. -/
theorem scan_stuck_cases (stuck : scan text = .stuck read) :
    (∃ behind, text = '$' :: behind ∧ Scan.reference behind = .stuck read) ∨
      (∃ behind, text = '\'' :: behind ∧ Scan.literal behind = .stuck read) ∨
      (∃ behind, text = '-' :: behind ∧ Scan.numeral ['-'] behind = .stuck read) ∨
      (IsPlain text ∧ Scan.symbol text = .stuck read) := by
  unfold scan at stuck
  split at stuck
  · exact .inr (.inr (.inr ⟨by simp [IsPlain], stuck⟩))
  · next c behind =>
      split at stuck
      · next dollar => exact .inl ⟨behind, by rw [dollar], stuck⟩
      · next dollar =>
          split at stuck
          · next quote =>
              obtain rfl : c = '\'' := by simpa [isQuote] using quote
              exact .inr (.inl ⟨behind, rfl, stuck⟩)
          · next quote =>
              split at stuck
              · next minus => exact .inr (.inr (.inl ⟨behind, by rw [minus], stuck⟩))
              · next minus =>
                  split at stuck
                  · next digit => simp [Scan.numeral, digit] at stuck
                  · next digit =>
                      refine .inr (.inr (.inr ⟨?_, stuck⟩))
                      simpa [IsPlain, dollar, minus, quote] using digit

/-- Whatever replaces the text behind the character that stopped a scan, the scan is stuck in
the same place. -/
theorem scan_stuck_exchange {c : Char} {other : List Char}
    (stuck : scan (read ++ c :: rest) = .stuck read) : scan (read ++ c :: other) = .stuck read := by
  rcases scan_stuck_cases stuck with
    ⟨behind, split, reference⟩ | ⟨behind, split, literal⟩ | ⟨behind, split, numeral⟩ |
      ⟨plain, symbol⟩
  · unfold Scan.reference at reference
    split at reference
    · next behind =>
        obtain ⟨letters, rfl, named⟩ := Scan.name_stuck reference
        obtain rfl : letters ++ c :: rest = behind := by simpa using split
        exact Scan.name_stuck_iff.mpr (Scan.name_stuck_iff.mp reference)
    · next notParen =>
        obtain ⟨letters, rfl, named⟩ := Scan.name_stuck reference
        obtain rfl : letters ++ c :: rest = behind := by simpa using split
        have still : ∀ tail, letters ++ c :: other = '(' :: tail → False := by
          intro tail begins
          cases letters with
          | nil => exact notParen rest (by rw [(List.cons.inj begins).1]; rfl)
          | cons d letters =>
              exact notParen (letters ++ c :: rest) (by rw [(List.cons.inj begins).1]; rfl)
        change Scan.reference (letters ++ c :: other) = _
        rw [Scan.reference.eq_2 _ still]
        exact Scan.name_stuck_iff.mpr (Scan.name_stuck_iff.mp reference)
  · obtain ⟨same, _⟩ := Scan.literal_stuck literal
    rw [← same] at split
    simp at split
  · unfold Scan.numeral at numeral
    split at numeral
    · next none =>
        obtain rfl := Scan.stuck.inj numeral
        obtain rfl : c :: rest = behind := by simpa using split
        have digit : c.isDigit = false := by
          by_contra digit
          simp [digit] at none
        simp [scan, isQuote, Scan.numeral, digit]
    · cases numeral
  · have sameHead : (read ++ c :: other).head? = (read ++ c :: rest).head? := by cases read <;> rfl
    have stillPlain : IsPlain (read ++ c :: other) := by
      rw [IsPlain, sameHead]
      exact plain
    obtain ⟨missing, equals⟩ := Scan.symbol_stuck_iff.mp symbol
    rw [scan_of_isPlain stillPlain, Scan.symbol_stuck_iff, sameHead]
    refine ⟨fun value member begins => ?_, equals⟩
    -- A symbol in front of the exchanged text would be told by what was read and the character.
    obtain ⟨near, known, nearBegins, short⟩ : ∃ near ∈ symbols,
        near.spelling <+: read ++ [c] ++ other ∧ near.spelling.length ≤ (read ++ [c]).length := by
      have two := (Scan.symbols_short value member).1
      rcases (Scan.symbols_short value member).2 with lead | ⟨shorter, known, single⟩
      · obtain ⟨tail, spelled⟩ := List.head?_eq_some_iff.mp lead
        have head : (read ++ c :: rest).head? = some '=' := by
          obtain ⟨behind, split⟩ := begins
          rw [← sameHead, ← split, spelled]
          rfl
        rw [if_pos head] at equals
        exact ⟨value, member, by simpa using begins, by simpa [equals] using two⟩
      · have shorterBegins := single ▸ (List.take_prefix 1 value.spelling).trans begins
        refine ⟨shorter, known, by simpa using shorterBegins, ?_⟩
        rw [single, List.length_take, List.length_append, List.length_singleton]
        omega
    have told := List.prefix_of_prefix_length_le nearBegins (List.prefix_append _ other) short
    exact missing near known (told.trans ⟨rest, by simp⟩)

/-- Name characters, followed by one more, are a name. -/
theorem isName_concat {letters : List Char} (named : ∀ c ∈ letters, isNameChar c = true) :
    IsName (String.ofList (letters ++ ['a'])) := by
  rw [isName_iff, String.toList_ofList]
  exact ⟨by simp, List.forall_mem_append.mpr ⟨named, List.forall_mem_singleton.mpr rfl⟩⟩

/-- What a stuck scan has read can become a lexeme: a name lacks its end, a literal its closing
quotes, a sign the digits behind it and an equals sign a second one. -/
theorem canBecome_of_scan (stuck : scan text = .stuck read) : CanBecome read := by
  rcases scan_stuck_cases stuck with
    ⟨behind, _, reference⟩ | ⟨behind, _, literal⟩ | ⟨behind, _, numeral⟩ | ⟨_, symbol⟩
  · unfold Scan.reference at reference
    split at reference
    · obtain ⟨letters, rfl, named⟩ := Scan.name_stuck reference
      exact ⟨['a', ')'], _, by simpa using LexemeAt.variableName (isName_concat named)⟩
    · obtain ⟨letters, rfl, named⟩ := Scan.name_stuck reference
      exact ⟨['a', '('], _, by simpa using LexemeAt.call (isName_concat named)⟩
  · obtain ⟨rfl, free | ⟨content, rfl, none⟩⟩ := Scan.literal_stuck literal
    · have single : ¬ ['\'', '\'', '\''] <+: '\'' :: behind ++ ['\''] := by
        rintro ⟨more, split⟩
        cases behind with
        | nil => simp at split
        | cons c inside => simp at split free; exact free.1 split.1
      have noQuote : '\'' ∉ (String.ofList behind).toList := by simpa using free
      exact ⟨['\''], .literal (String.ofList behind),
        by simpa using LexemeAt.singleQuoted noQuote single⟩
    · have writable : IsWritable (String.ofList content).toList := by
        simpa using Scan.isWritable_of_tripleContent?_eq_none none
      exact ⟨['\'', '\'', '\''], .literal (String.ofList content),
        by simpa using LexemeAt.tripleQuoted writable⟩
  · unfold Scan.numeral at numeral
    split at numeral
    · obtain rfl := Scan.stuck.inj numeral
      have digit : IsNumeral "-0".toList := ⟨['-'], ['0'], rfl, .inr rfl, by simp, by simp⟩
      exact ⟨['0'], .number "-0", .number digit⟩
    · cases numeral
  · obtain ⟨_, rfl⟩ := Scan.symbol_stuck_iff.mp symbol
    split
    · exact ⟨['='], _, .comparison .equal⟩
    · exact ⟨['!'], _, .not⟩

/-! ## The longest part -/

/-- A scan is stuck behind the longest part of its text that more text could still make a lexeme
of. Proof: if a longer part could become one, then a scan of that lexeme would be stuck in the
same place, since the character there is part of both texts. -/
theorem isLongestPart_of_scan (stuck : scan (read ++ rest) = .stuck read) :
    IsLongestPart (read ++ rest) read := by
  refine ⟨List.prefix_append read rest, canBecome_of_scan stuck, ?_⟩
  rintro other begins ⟨more, value, lexemeAt⟩
  by_contra longer
  obtain ⟨further, rfl⟩ : read <+: other :=
    List.prefix_of_prefix_length_le (List.prefix_append read rest) begins (by omega)
  cases further with
  | nil => simp at longer
  | cons c further =>
      obtain ⟨behind, rfl⟩ : ∃ behind, rest = c :: behind := by
        obtain ⟨behind, split⟩ := begins
        exact ⟨further ++ behind, by simpa using split.symm⟩
      have still : scan (read ++ c :: (further ++ more)) = .stuck read := scan_stuck_exchange stuck
      obtain ⟨found, own, scanned⟩ := exists_scan_of_beginsWith ⟨List.prefix_rfl, lexemeAt⟩
      simp [still] at scanned

/-- Two parts of a text that are both the longest are one. -/
theorem IsLongestPart.unique {other : List Char} (first : IsLongestPart text read)
    (second : IsLongestPart text other) : read = other := by
  obtain ⟨begins, can, longest⟩ := first
  obtain ⟨otherBegins, otherCan, otherLongest⟩ := second
  have shorter := otherLongest read begins can
  have isPrefix := List.prefix_of_prefix_length_le begins otherBegins shorter
  exact isPrefix.eq_of_length (Nat.le_antisymm shorter (longest other otherBegins otherCan))

/-- A scan is stuck exactly if its text begins with no lexeme; and it is stuck behind the longest
part that could become one. -/
theorem scan_stuck_iff_isLongestPart : scan (read ++ rest) = .stuck read ↔
    (∀ own lexeme, ¬ BeginsWith (read ++ rest) own lexeme) ∧
      IsLongestPart (read ++ rest) read := by
  constructor
  · intro stuck
    refine ⟨fun own lexeme begins => ?_, isLongestPart_of_scan stuck⟩
    obtain ⟨found, read, scanned⟩ := exists_scan_of_beginsWith begins
    cases stuck.symm.trans scanned
  · rintro ⟨missing, longest⟩
    obtain ⟨behind, split⟩ := scan_read_isPrefix (read ++ rest)
    cases scanned : scan (read ++ rest) with
    | found lexeme own =>
        rw [scanned, Scan.read] at split
        have begins := beginsWith_of_scan (split ▸ scanned)
        exact absurd (split ▸ begins) (missing own lexeme)
    | stuck other =>
        rw [scanned, Scan.read] at split
        have otherLongest := isLongestPart_of_scan (split ▸ scanned)
        rw [longest.unique (split ▸ otherLongest)]

/-! ## Pulling tokens -/

/-- From one cursor to another, all blanks there are passed and then a text. -/
structure Cursor.Reaches (cursor : Cursor) (blanks own : List Char) (behind : Cursor) : Prop
    extends cursor.Passes blanks own behind where
  maximal : ∀ c ∈ (own ++ behind.rest).head?, isBlank c = false

namespace Cursor

variable {cursor behind : Cursor} {blanks : List Char}

/-- The blanks that are passed are the run of them at the cursor. -/
theorem Reaches.skip (reaches : cursor.Reaches blanks own behind) :
    cursor.rest.takeWhile isBlank = blanks ∧
      cursor.skip isBlank = ⟨cursor.position.past blanks, own ++ behind.rest⟩ := by
  have run := takeWhile_run reaches.blank reaches.maximal
  rw [skip_eq, reaches.text, run, dropWhile_run reaches.blank reaches.maximal]
  exact ⟨rfl, rfl⟩

/-- If no text is passed behind the blanks, skipping them reaches the later cursor. -/
theorem Reaches.skip_eq_behind (reaches : cursor.Reaches blanks [] behind) :
    cursor.skip isBlank = behind := by
  obtain ⟨position, rest⟩ := behind
  have same : position = cursor.position.past blanks := reaches.position
  rw [same]
  exact reaches.skip.2

/-- No blank follows the blanks at a cursor. -/
theorem not_isBlank_of_mem_head? {c : Char} (head : c ∈ (cursor.rest.dropWhile isBlank).head?) :
    isBlank c = false := by
  have outside := List.head?_dropWhile_not isBlank cursor.rest
  rw [Option.mem_def.mp head] at outside
  simpa using outside

/-- Skipping blanks reaches what is behind them, and nothing is read of it. -/
theorem reaches_skip (cursor : Cursor) :
    cursor.Reaches (cursor.rest.takeWhile isBlank) [] (cursor.skip isBlank) where
  toPasses := cursor.passes_skip
  maximal := by
    rw [List.nil_append, rest_skip]
    exact fun c => not_isBlank_of_mem_head?

/-- From every cursor on, all blanks are passed and then what a scan reads. -/
theorem exists_reaches (cursor : Cursor) : ∃ own behind,
    cursor.Reaches (cursor.rest.takeWhile isBlank) own behind ∧
      (scan (own ++ behind.rest)).read = own := by
  obtain ⟨rest, split⟩ := scan_read_isPrefix (cursor.rest.dropWhile isBlank)
  refine ⟨_, ⟨_, rest⟩, ⟨⟨?_, List.all_eq_true.mp List.all_takeWhile, rfl⟩, ?_⟩, by rw [split]⟩
  · rw [split]
    exact List.takeWhile_append_dropWhile.symm
  · rw [split]
    exact fun c => not_isBlank_of_mem_head?

/-- What is seen at a cursor is what a scan reads behind the blanks. -/
theorem Reaches.look_eq (reaches : cursor.Reaches blanks own behind)
    (read : (scan (own ++ behind.rest)).read = own) : cursor.look =
      match scan (own ++ behind.rest) with
      | .found value _ => .lexeme value (cursor.position.past blanks) behind
      | .stuck _ => if (own ++ behind.rest).isEmpty then .ending behind else .fault behind := by
  have dropped : (⟨cursor.position.past blanks, own ++ behind.rest⟩ : Cursor).drop own.length =
      behind := by
    rw [drop_length rfl, ← reaches.position]
  rw [look, reaches.skip.2, lookHere]
  cases scanned : scan (own ++ behind.rest) with
  | found value other =>
      obtain rfl : other = own := by rw [← read, scanned]; rfl
      have present := scan_read_ne_nil scanned
      simp [present, dropped]
  | stuck other =>
      obtain rfl : other = own := by rw [← read, scanned]; rfl
      split
      · next finished =>
          obtain ⟨rfl, _⟩ : other = [] ∧ behind.rest = [] := by simpa using finished
          rw [← reaches.skip.2, reaches.skip_eq_behind]
      · exact congrArg _ dropped

end Cursor

namespace TokenStream

/-- What a token stream answers by its lexical grammar, and the stream behind the answer. With the
flag of a colon set, blanks are a token. Otherwise they are skipped, and behind them stands the
end of the text; or some lexeme, and then the longest one is the token; or none, and then the text
is refused behind the longest part that could still become one. -/
inductive LongestMatch (stream : TokenStream) : Except LexError Token × TokenStream → Prop where
  | space {blanks : List Char} {behind : Cursor} : stream.afterColon = true → blanks ≠ [] →
      stream.cursor.Reaches blanks [] behind →
      LongestMatch stream
        (.ok (stream.token (.space (String.ofList blanks)) stream.cursor.position behind),
          { stream with cursor := behind, afterColon := false })
  | ending {blanks : List Char} {behind : Cursor} : (stream.afterColon = true → blanks = []) →
      stream.cursor.Reaches blanks [] behind → behind.rest = [] →
      LongestMatch stream
        (.ok (stream.token .ending behind.position behind), { stream with cursor := behind })
  | lexeme {blanks own : List Char} {behind : Cursor} {value : Lexeme} :
      (stream.afterColon = true → blanks = []) → stream.cursor.Reaches blanks own behind →
      IsLongest (own ++ behind.rest) own value →
      LongestMatch stream
        (.ok (stream.token (.lexeme value) (stream.cursor.position.past blanks) behind),
          { stream with cursor := behind, afterColon := value == .colon })
  | misfit {blanks read rest : List Char} {stopped : Cursor} {c : Char} :
      (stream.afterColon = true → blanks = []) → stream.cursor.Reaches blanks read stopped →
      stopped.rest = c :: rest → (∀ own value, ¬ BeginsWith (read ++ stopped.rest) own value) →
      IsLongestPart (read ++ stopped.rest) read →
      LongestMatch stream
        (.error ⟨.unexpectedChar c, stopped.position⟩, { stream with cursor := stopped })
  | cutShort {blanks read : List Char} {stopped : Cursor} :
      (stream.afterColon = true → blanks = []) → stream.cursor.Reaches blanks read stopped →
      read ≠ [] → stopped.rest = [] → (∀ own value, ¬ BeginsWith (read ++ stopped.rest) own value) →
      IsLongestPart (read ++ stopped.rest) read →
      LongestMatch stream
        (.error ⟨.unexpectedEnd, stopped.position⟩, { stream with cursor := stopped })

variable {stream : TokenStream} {blanks : List Char} {behind : Cursor}

/-- Unless blanks are a token, what a scan reads behind them decides the answer. -/
theorem pull_of_reaches (noSpace : stream.afterColon = true → blanks = [])
    (reaches : stream.cursor.Reaches blanks own behind)
    (read : (scan (own ++ behind.rest)).read = own) : stream.pull =
      match scan (own ++ behind.rest) with
      | .found value _ =>
          (.ok (stream.token (.lexeme value) (stream.cursor.position.past blanks) behind),
            { stream with cursor := behind, afterColon := value == .colon })
      | .stuck _ =>
          if (own ++ behind.rest).isEmpty then
            (.ok (stream.token .ending behind.position behind), { stream with cursor := behind })
          else (.error (.stoppedAt behind), { stream with cursor := behind }) := by
  obtain ⟨run, _⟩ := reaches.skip
  rcases pull_cases stream with ⟨colon, nonempty, _⟩ | ⟨_, pulled⟩
  · exact absurd (run.trans (noSpace colon)) nonempty
  · rw [pulled, pullBehindBlanks, reaches.look_eq read]
    cases scan (own ++ behind.rest) with
    | found => rfl
    | stuck => by_cases finished : (own ++ behind.rest).isEmpty <;> simp only [finished] <;> rfl

/-- What a token stream answers, it answers by its lexical grammar. -/
theorem longestMatch_pull (stream : TokenStream) : LongestMatch stream stream.pull := by
  obtain ⟨own, behind, reaches, read⟩ := Cursor.exists_reaches stream.cursor
  rcases pull_cases stream with ⟨colon, nonempty, pulled⟩ | ⟨noSpace, _⟩
  · rw [pulled]
    exact .space colon nonempty (Cursor.reaches_skip _)
  · rw [pull_of_reaches noSpace reaches read]
    cases scanned : scan (own ++ behind.rest) with
    | found value other =>
        obtain rfl : other = own := by rw [← read, scanned]; rfl
        exact .lexeme noSpace reaches (scan_found_iff_isLongest.mp scanned)
    | stuck other =>
        obtain rfl : other = own := by rw [← read, scanned]; rfl
        obtain ⟨missing, longest⟩ := scan_stuck_iff_isLongestPart.mp scanned
        by_cases finished : (other ++ behind.rest).isEmpty
        · obtain ⟨rfl, rest⟩ : other = [] ∧ behind.rest = [] := by simpa using finished
          rw [if_pos finished]
          exact .ending noSpace reaches rest
        · rw [if_neg finished]
          simp only [LexError.stoppedAt]
          cases rest : behind.rest with
          | nil =>
              refine .cutShort noSpace reaches ?_ rest missing longest
              simpa [rest] using finished
          | cons c behind => exact .misfit noSpace reaches rest missing longest

/-- A token stream answers exactly what its lexical grammar says, wherever it stands. -/
theorem pull_eq_iff_longestMatch (stream : TokenStream)
    (answer : Except LexError Token × TokenStream) :
    stream.pull = answer ↔ LongestMatch stream answer := by
  refine ⟨fun same => same ▸ longestMatch_pull stream, fun matched => ?_⟩
  cases matched with
  | space colon nonempty reaches =>
      obtain ⟨rfl, _⟩ := reaches.skip
      rcases pull_cases stream with ⟨_, _, pulled⟩ | ⟨noSpace, _⟩
      · rw [pulled, reaches.skip_eq_behind]
      · exact absurd (noSpace colon) nonempty
  | @ending _ behind noSpace reaches finished =>
      have scanned : scan ([] ++ behind.rest) = .stuck [] := by
        rw [finished]
        rfl
      rw [pull_of_reaches noSpace reaches (by rw [scanned]; rfl), scanned]
      simp [finished]
  | lexeme noSpace reaches longest =>
      have scanned := scan_found_iff_isLongest.mpr longest
      rw [pull_of_reaches noSpace reaches (by rw [scanned]; rfl), scanned]
  | misfit noSpace reaches remains missing longest =>
      have scanned := scan_stuck_iff_isLongestPart.mpr ⟨missing, longest⟩
      rw [pull_of_reaches noSpace reaches (by rw [scanned]; rfl), scanned]
      simp [remains, LexError.stoppedAt]
  | cutShort noSpace reaches present finished missing longest =>
      have scanned := scan_stuck_iff_isLongestPart.mpr ⟨missing, longest⟩
      rw [pull_of_reaches noSpace reaches (by rw [scanned]; rfl), scanned]
      simp [present, finished, LexError.stoppedAt]

end TokenStream
end EdgeExpression
