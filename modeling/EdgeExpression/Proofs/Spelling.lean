import EdgeExpression.Lexeme.Scan
import EdgeExpression.Text.Decimal
import Mathlib.Data.List.Basic

/-!
# Legible lexemes

A lexeme is legible if some text is read as it. Names must consist of name
characters, numerals of digits behind at most one minus sign, and in the text of a
literal a run of three or more quotes can only stand at the very end, since it would
close the literal anywhere else. All other lexemes are legible as they are.

Both directions hold: a scan finds legible lexemes only, and it finds each of them at
its canonical spelling, whatever follows, as long as the next character does not make
the lexeme longer. The numerals that the printer writes are among them.
-/
namespace EdgeExpression

/-- A name has at least one character; all are ASCII letters, digits or underscores. -/
def IsName (text : String) : Prop :=
  text ≠ "" ∧ ∀ c ∈ text.toList, c.isAlphanum = true ∨ c = '_'

/-- Behind three quotes in a row there is nothing but further quotes. -/
def IsWritable (text : List Char) : Prop :=
  ∀ before c behind, text = before ++ ['\'', '\'', '\''] ++ c :: behind → c = '\''

/-- A numeral has digits and may have a minus sign in front of them. -/
def IsNumeral (text : List Char) : Prop :=
  ∃ sign digits, text = sign ++ digits ∧ (sign = [] ∨ sign = ['-']) ∧ digits ≠ [] ∧
    ∀ c ∈ digits, c.isDigit = true

namespace Lexeme

/-- What a lexeme carries is something that a text can show. -/
def Legible : Lexeme → Prop
  | .call name | .variable name | .member name => IsName name
  | .literal text => IsWritable text.toList
  | .number numeral => IsNumeral numeral.toList
  | _ => True

/-- The characters that would be taken for more of a lexeme directly behind it. -/
def absorbs : Lexeme → Char → Bool
  | .number _, c => c.isDigit
  | .literal _, c => isQuote c
  | .not, c | .comparison .less, c | .comparison .greater, c => c == '='
  | .connective .and, c => c == '&'
  | .connective .or, c => c == '|'
  | _, _ => false

end Lexeme

/-! ## Runs of one class of characters -/

/-- A run ends where a character of another class follows. -/
theorem takeWhile_run {p : Char → Bool} {run rest : List Char} (inside : ∀ c ∈ run, p c = true)
    (boundary : ∀ c ∈ rest.head?, p c = false) : (run ++ rest).takeWhile p = run := by
  rw [List.takeWhile_append_of_pos inside]
  cases rest with
  | nil => simp
  | cons c rest => simp [boundary c rfl]

/-- A run that ends at a boundary is dropped as a whole. -/
theorem dropWhile_run {p : Char → Bool} {run rest : List Char} (inside : ∀ c ∈ run, p c = true)
    (boundary : ∀ c ∈ rest.head?, p c = false) : (run ++ rest).dropWhile p = rest := by
  rw [List.dropWhile_append_of_pos inside]
  cases rest with
  | nil => rfl
  | cons c rest => simp [boundary c rfl]

/-- Quotes may trade places with quotes. -/
theorem quotes_comm {run : List Char} (quotes : ∀ c ∈ run, isQuote c = true) :
    run ++ ['\'', '\'', '\''] = ['\'', '\'', '\''] ++ run := by
  have same : run = List.replicate run.length '\'' :=
    List.eq_replicate_iff.mpr ⟨rfl, fun c member => by simpa [isQuote] using quotes c member⟩
  rw [same]
  change List.replicate run.length '\'' ++ List.replicate 3 '\'' =
    List.replicate 3 '\'' ++ List.replicate run.length '\''
  rw [← List.replicate_add, ← List.replicate_add, Nat.add_comm]

/-- Names consist of letters, digits and underscores. -/
theorem isNameChar_iff (c : Char) : isNameChar c = true ↔ c.isAlphanum = true ∨ c = '_' := by
  simp [isNameChar]

/-- The characters of a name are exactly those that a scan takes for one. -/
theorem isName_iff (text : String) :
    IsName text ↔ text.toList ≠ [] ∧ ∀ c ∈ text.toList, isNameChar c = true := by
  simp [IsName, isNameChar_iff]

/-! ## Quotes inside a literal -/

/-- What is behind the first character of a text that can be written can be written. -/
theorem IsWritable.tail {c : Char} {text : List Char} (writable : IsWritable (c :: text)) :
    IsWritable text := by
  intro before d behind split
  exact writable (c :: before) d behind (by simp [split])

/-- A text that begins with three quotes is writable only if it consists of quotes. -/
theorem IsWritable.quotes {text : List Char}
    (writable : IsWritable ('\'' :: '\'' :: '\'' :: text)) : ∀ c ∈ text, isQuote c = true := by
  induction text with
  | nil => simp
  | cons c text induction =>
      obtain rfl : c = '\'' := writable [] c text rfl
      intro d member
      rcases List.mem_cons.mp member with rfl | later
      · rfl
      · exact induction writable.tail d later

/-- Without a quote nothing stands behind three of them. -/
theorem isWritable_of_not_mem {text : List Char} (free : '\'' ∉ text) : IsWritable text := by
  intro before c behind split
  exact absurd (by simp [split]) free

/-- A text of nothing but quotes can be written. -/
theorem isWritable_of_quotes {text : List Char} (quotes : ∀ c ∈ text, isQuote c = true) :
    IsWritable text := by
  intro before c behind split
  simpa [isQuote] using quotes c (by simp [split])

/-- The content of a literal in triple quotes is writable. Where the content goes on
behind a character, that character and what follows it are not three quotes, so a run
of three quotes in the content lies wholly behind it or begins the closing run. -/
theorem tripleContent?_isWritable {text content : List Char}
    (closed : Scan.tripleContent? text = some content) : IsWritable content := by
  induction text using Scan.tripleContent?.induct generalizing content with
  | case1 text =>
      obtain rfl : text.takeWhile isQuote = content := by
        simpa [Scan.tripleContent?] using closed
      exact isWritable_of_quotes (List.all_eq_true.mp List.all_takeWhile)
  | case2 c text notRun induction =>
      rw [Scan.tripleContent?] at closed
      · obtain ⟨tail, tailClosed, rfl⟩ := Option.map_eq_some_iff.mp closed
        intro before d behind split
        cases before with
        | cons first before =>
            obtain ⟨rfl, tailSplit⟩ := List.cons.inj split
            exact induction tailClosed before d behind tailSplit
        | nil =>
            obtain ⟨rfl, rfl⟩ := List.cons.inj split
            obtain ⟨rest, whole⟩ := Scan.tripleContent?_isPrefix tailClosed
            exact absurd whole.symm (by simpa using notRun _ rfl)
      · exact notRun
  | case3 => simp [Scan.tripleContent?] at closed

/-- If a writable text and the quotes behind it go on with three quotes, the text has
quotes only. -/
theorem IsWritable.quotes_of_begins {text rest tail : List Char}
    (writable : IsWritable ('\'' :: text))
    (begins : text ++ ['\'', '\'', '\''] ++ rest = '\'' :: '\'' :: tail) :
    ∀ c ∈ '\'' :: text, isQuote c = true := by
  rcases text with _ | ⟨d, _ | ⟨e, text⟩⟩
  · simp [isQuote]
  · obtain ⟨rfl, _⟩ := List.cons.inj begins
    simp [isQuote]
  · obtain ⟨rfl, behind⟩ := List.cons.inj begins
    obtain ⟨rfl, _⟩ := List.cons.inj behind
    simpa [isQuote] using writable.quotes

/-- The writable texts are read back from triple quotes. A text of quotes only is read
from the closing run. In front of any other text its first character is passed, since
together with what follows it does not begin with three quotes. -/
theorem tripleContent?_append {text rest : List Char} (writable : IsWritable text)
    (boundary : ∀ c ∈ rest.head?, isQuote c = false) :
    Scan.tripleContent? (text ++ ['\'', '\'', '\''] ++ rest) = some text := by
  induction text with
  | nil =>
      have none : ([] ++ rest).takeWhile isQuote = [] := takeWhile_run (by simp) boundary
      simpa [Scan.tripleContent?] using none
  | cons c text induction =>
      by_cases quotes : ∀ d ∈ c :: text, isQuote d = true
      · rw [quotes_comm quotes, List.append_assoc]
        change some ((c :: text ++ rest).takeWhile isQuote) = some (c :: text)
        rw [takeWhile_run quotes boundary]
      · have notRun : ∀ tail, c = '\'' →
            text ++ ['\'', '\'', '\''] ++ rest = '\'' :: '\'' :: tail → False := by
          rintro tail rfl begins
          exact quotes (writable.quotes_of_begins begins)
        rw [List.cons_append, List.cons_append, Scan.tripleContent?.eq_2 _ _ notRun,
          induction writable.tail]
        rfl

/-! ## A scan finds legible lexemes -/

namespace Scan

/-- A name is found with the delimiter behind it. -/
theorem name_found {opening text read : List Char} {lexeme : Lexeme}
    {delimiter : Char → Option (String → Lexeme)}
    (result : name opening text delimiter = .found lexeme read) :
    ∃ c make letters, delimiter c = some make ∧ lexeme = make letters ∧ IsName letters ∧
      read = opening ++ letters.toList ++ [c] := by
  unfold name delimited at result
  split at result
  · cases result
  · cases result
  · next c behind _ nonempty =>
      split at result
      · next make known =>
          cases result
          have named : IsName (String.ofList (text.takeWhile isNameChar)) := by
            rw [isName_iff, String.toList_ofList]
            exact ⟨nonempty, List.all_eq_true.mp List.all_takeWhile⟩
          exact ⟨c, make, _, known, rfl, named, by rw [String.toList_ofList]⟩
      · cases result

/-- Behind a dollar sign a variable, a member or a call is found, at its spelling. -/
theorem reference_found {text read : List Char} {lexeme : Lexeme}
    (result : reference text = .found lexeme read) :
    ∃ letters, IsName letters ∧ read = lexeme.spelling ∧
      (lexeme = .variable letters ∨ lexeme = .member letters ∨ lexeme = .call letters) := by
  unfold reference at result
  split at result
  · obtain ⟨c, make, letters, known, rfl, named, rfl⟩ := name_found result
    unfold enclosedName at known
    split at known
    · next paren =>
        cases known
        exact ⟨letters, named, by simp [paren, Lexeme.spelling], .inl rfl⟩
    · split at known
      · next brace =>
          cases known
          exact ⟨letters, named, by simp [brace, Lexeme.spelling], .inr (.inl rfl)⟩
      · cases known
  · obtain ⟨c, make, letters, known, rfl, named, rfl⟩ := name_found result
    unfold bareName at known
    split at known
    · next paren =>
        cases known
        exact ⟨letters, named, by simp [paren, Lexeme.spelling], .inr (.inr rfl)⟩
    · cases known

/-- A reference that is found can be written. -/
theorem reference_found_legible {text read : List Char} {lexeme : Lexeme}
    (result : reference text = .found lexeme read) : lexeme.Legible := by
  obtain ⟨letters, named, _, rfl | rfl | rfl⟩ := reference_found result <;> exact named

/-- A literal that is found can be written. -/
theorem literal_found_legible {text read : List Char} {lexeme : Lexeme}
    (result : literal text = .found lexeme read) : lexeme.Legible := by
  unfold literal at result
  split at result
  · split at result
    · next closed =>
        cases result
        simpa [Lexeme.Legible] using tripleContent?_isWritable closed
    · cases result
  · split at result
    · cases result
    · cases result
      have free : '\'' ∉ text.takeWhile (!isQuote ·) := by
        intro member
        have refused := List.all_eq_true.mp (List.all_takeWhile (l := text)) _ member
        simp [isQuote] at refused
      simpa [Lexeme.Legible] using isWritable_of_not_mem free

/-- A numeral that is found can be written. -/
theorem numeral_found_legible {sign text read : List Char} {lexeme : Lexeme}
    (signed : sign = [] ∨ sign = ['-'])
    (result : numeral sign text = .found lexeme read) : lexeme.Legible := by
  unfold numeral at result
  split at result
  · cases result
  · next nonempty =>
      cases result
      refine ⟨sign, text.takeWhile Char.isDigit, by simp, signed, nonempty, ?_⟩
      exact List.all_eq_true.mp List.all_takeWhile

/-- A symbol that is found can be written. -/
theorem symbol_found_legible {text read : List Char} {lexeme : Lexeme}
    (result : symbol text = .found lexeme read) : lexeme.Legible := by
  have all : ∀ known ∈ symbols, known.Legible := by simp [symbols, Lexeme.Legible]
  unfold symbol at result
  split at result
  · next matched =>
      cases result
      exact all _ (List.mem_of_find?_eq_some matched)
  · cases result

end Scan

/-- What a scan finds is a reference, a literal, a numeral or a symbol. -/
theorem scan_found_cases {text read : List Char} {lexeme : Lexeme}
    (result : scan text = .found lexeme read) :
    (∃ behind, text = '$' :: behind ∧ Scan.reference behind = .found lexeme read) ∨
      (∃ behind, text = '\'' :: behind ∧ Scan.literal behind = .found lexeme read) ∨
      (∃ sign behind, text = sign ++ behind ∧ (sign = [] ∨ sign = ['-']) ∧
        Scan.numeral sign behind = .found lexeme read) ∨
      Scan.symbol text = .found lexeme read := by
  unfold scan at result
  split at result
  · cases result
  · next c behind =>
      split at result
      · next dollar => exact .inl ⟨behind, by rw [dollar], result⟩
      · split at result
        · next quote =>
            obtain rfl : c = '\'' := by simpa [isQuote] using quote
            exact .inr (.inl ⟨behind, rfl, result⟩)
        · split at result
          · next minus =>
              exact .inr (.inr (.inl ⟨['-'], behind, by rw [minus]; rfl, .inr rfl, result⟩))
          · split at result
            · exact .inr (.inr (.inl ⟨[], c :: behind, rfl, .inl rfl, result⟩))
            · exact .inr (.inr (.inr result))

/-- Whatever a scan finds is legible. -/
theorem scan_found_legible {text read : List Char} {lexeme : Lexeme}
    (result : scan text = .found lexeme read) : lexeme.Legible := by
  rcases scan_found_cases result with
    ⟨_, _, reference⟩ | ⟨_, _, literal⟩ | ⟨_, _, _, signed, numeral⟩ | symbol
  · exact Scan.reference_found_legible reference
  · exact Scan.literal_found_legible literal
  · exact Scan.numeral_found_legible signed numeral
  · exact Scan.symbol_found_legible symbol

/-! ## A legible lexeme is found at its spelling -/

namespace Scan

/-- A name is read up to the delimiter behind it. -/
theorem name_delimited {letters : List Char} {c : Char} {make : String → Lexeme}
    {delimiter : Char → Option (String → Lexeme)} (nonempty : letters ≠ [])
    (named : ∀ d ∈ letters, isNameChar d = true) (known : delimiter c = some make)
    (outside : isNameChar c = false) (opening rest : List Char) :
    name opening (letters ++ c :: rest) delimiter =
      .found (make (String.ofList letters)) (opening ++ letters ++ [c]) := by
  have boundary : ∀ d ∈ (c :: rest).head?, isNameChar d = false := by simpa using outside
  rw [name, takeWhile_run named boundary, dropWhile_run named boundary]
  cases letters with
  | nil => exact absurd rfl nonempty
  | cons first letters => simp [delimited, known]

/-- A name in front of an opening parenthesis is found as a call. -/
theorem reference_call {letters : List Char} (nonempty : letters ≠ [])
    (named : ∀ d ∈ letters, isNameChar d = true) (rest : List Char) :
    reference (letters ++ '(' :: rest) =
      .found (.call (String.ofList letters)) (['$'] ++ letters ++ ['(']) := by
  cases letters with
  | nil => exact absurd rfl nonempty
  | cons first letters =>
      have different : first ≠ '(' := by
        rintro rfl
        exact absurd (named '(' (by simp)) (by decide)
      rw [List.cons_append, reference.eq_2 _ (by simpa using different)]
      exact name_delimited nonempty named rfl (by decide) _ _

/-- A writable text is read from triple quotes, unless a further quote follows them. -/
theorem scan_triple {text rest : List Char} (writable : IsWritable text)
    (boundary : ∀ c ∈ rest.head?, isQuote c = false) :
    scan (['\'', '\'', '\''] ++ text ++ ['\'', '\'', '\''] ++ rest) =
      .found (.literal (String.ofList text))
        (['\'', '\'', '\''] ++ text ++ ['\'', '\'', '\'']) := by
  have closed := tripleContent?_append writable boundary
  rw [List.append_assoc] at closed
  have read : literal ('\'' :: '\'' :: (text ++ (['\'', '\'', '\''] ++ rest))) =
      .found (.literal (String.ofList text))
        (['\'', '\'', '\''] ++ text ++ ['\'', '\'', '\'']) := by
    rw [literal.eq_1, closed]
  simpa [scan, isQuote] using read

/-- A text without a quote is read from single quotes. Only behind an empty one a further
quote matters, since the three of them would open another literal. -/
theorem scan_single {text rest : List Char} (free : '\'' ∉ text)
    (boundary : text = [] → ∀ c ∈ rest.head?, isQuote c = false) :
    scan (['\''] ++ text ++ ['\''] ++ rest) =
      .found (.literal (String.ofList text)) (['\''] ++ text ++ ['\'']) := by
  have inside : ∀ c ∈ text, (!isQuote c) = true := by
    intro c member
    have different : c ≠ '\'' := fun same => free (same ▸ member)
    simp [isQuote, different]
  have begins : ∀ tail, text ++ '\'' :: rest = '\'' :: '\'' :: tail → False := by
    intro tail split
    cases text with
    | nil =>
        obtain ⟨_, rfl⟩ := List.cons.inj split
        simp [isQuote] at boundary
    | cons c text =>
        obtain ⟨rfl, _⟩ := List.cons.inj split
        exact free (by simp)
  have dropped : (text ++ '\'' :: rest).dropWhile (!isQuote ·) = '\'' :: rest :=
    dropWhile_run inside (by simp [isQuote])
  have taken : (text ++ '\'' :: rest).takeWhile (!isQuote ·) = text :=
    takeWhile_run inside (by simp [isQuote])
  have read : literal (text ++ '\'' :: rest) =
      .found (.literal (String.ofList text)) (['\''] ++ text ++ ['\'']) := by
    rw [literal.eq_2 _ begins, dropped, taken]
  simpa [scan, isQuote] using read

/-- A writable text is read from its quotes, unless a further quote follows them. -/
theorem literal_quoted {text rest : List Char} (writable : IsWritable text)
    (boundary : ∀ c ∈ rest.head?, isQuote c = false) :
    scan (Lexeme.quoted text ++ rest) =
      .found (.literal (String.ofList text)) (Lexeme.quoted text) := by
  unfold Lexeme.quoted
  split
  · exact scan_triple writable boundary
  · next free => exact scan_single free fun _ => boundary

/-- A numeral is read up to the first character that is no digit. -/
theorem scan_numeral {text rest : List Char} (numeral : IsNumeral text)
    (boundary : ∀ c ∈ rest.head?, c.isDigit = false) :
    scan (text ++ rest) = .found (.number (String.ofList text)) text := by
  obtain ⟨sign, digits, rfl, signed, nonempty, all⟩ := numeral
  have taken : (digits ++ rest).takeWhile Char.isDigit = digits := takeWhile_run all boundary
  have read : Scan.numeral sign (digits ++ rest) =
      .found (.number (String.ofList (sign ++ digits))) (sign ++ digits) := by
    rw [Scan.numeral, taken]
    cases digits with
    | nil => exact absurd rfl nonempty
    | cons first digits => rfl
  rcases signed with rfl | rfl
  · cases digits with
    | nil => exact absurd rfl nonempty
    | cons first digits =>
        have digit : first.isDigit = true := all first (by simp)
        have apart : ∀ c : Char, c.isDigit = false → first ≠ c := by
          rintro c refused rfl
          exact absurd digit (by simp [refused])
        have notQuote : isQuote first = false := by
          simpa [isQuote] using apart '\'' (by decide)
        simpa [scan, digit, notQuote, apart '$' (by decide), apart '-' (by decide)] using read
  · simpa [scan, isQuote] using read

/-- An operator that may be followed by a second character is found alone if another
character follows. -/
theorem scan_short {lexeme : Lexeme} {rest : List Char}
    (short : lexeme ∈ [Lexeme.not, .comparison .less, .comparison .greater,
      .connective .and, .connective .or])
    (boundary : ∀ c ∈ rest.head?, lexeme.absorbs c = false) :
    scan (lexeme.spelling ++ rest) = .found lexeme lexeme.spelling := by
  simp only [List.mem_cons, List.not_mem_nil, or_false] at short
  cases rest with
  | nil => rcases short with rfl | rfl | rfl | rfl | rfl <;> rfl
  | cons c rest =>
      have refused := boundary c rfl
      have second : ∀ d : Char, lexeme.absorbs d = true → (d == c) = false := by
        intro d absorbed
        rw [beq_eq_false_iff_ne]
        rintro rfl
        exact absurd absorbed (by simp [refused])
      rcases short with rfl | rfl | rfl | rfl | rfl <;>
        simp [scan, isQuote, Lexeme.spelling, Lexeme.cargo, negationSymbol, symbol, symbols,
          Comparison.symbol, Connective.symbol, List.find?, List.isPrefixOf,
          second '=', second '&', second '|', Lexeme.absorbs]

end Scan

/-- A legible lexeme is found at the beginning of a text that begins with its spelling,
unless the character behind the spelling makes it longer. -/
theorem scan_spelling (lexeme : Lexeme) (rest : List Char) (legible : lexeme.Legible)
    (boundary : ∀ c ∈ rest.head?, lexeme.absorbs c = false) :
    scan (lexeme.spelling ++ rest) = .found lexeme lexeme.spelling := by
  cases lexeme with
  | call name =>
      obtain ⟨nonempty, named⟩ := (isName_iff name).mp legible
      simpa [scan, Lexeme.spelling] using Scan.reference_call nonempty named rest
  | «variable» name =>
      obtain ⟨nonempty, named⟩ := (isName_iff name).mp legible
      have known : Scan.enclosedName ')' = some .variable := rfl
      have read := Scan.name_delimited nonempty named known (by decide) ['$', '('] rest
      simpa [scan, Lexeme.spelling, Scan.reference] using read
  | member name =>
      obtain ⟨nonempty, named⟩ := (isName_iff name).mp legible
      have known : Scan.enclosedName '{' = some .member := rfl
      have read := Scan.name_delimited nonempty named known (by decide) ['$', '('] rest
      simpa [scan, Lexeme.spelling, Scan.reference] using read
  | literal text =>
      simpa [Lexeme.spelling] using Scan.literal_quoted legible boundary
  | number numeral =>
      simpa [Lexeme.spelling, Lexeme.cargo] using Scan.scan_numeral legible boundary
  | not => exact Scan.scan_short (by simp) boundary
  | comparison operator =>
      cases operator with
      | less => exact Scan.scan_short (by simp) boundary
      | greater => exact Scan.scan_short (by simp) boundary
      | _ => rfl
  | connective operator =>
      cases operator with
      | and => exact Scan.scan_short (by simp) boundary
      | or => exact Scan.scan_short (by simp) boundary
      | _ => rfl
  | _ => rfl

/-! ## Canonical numerals -/

/-- The canonical numeral of an integer is a numeral. -/
theorem isNumeral_ofInt (i : Int) : IsNumeral (Decimal.ofInt i).toList := by
  have all : ∀ c ∈ Decimal.digits i.natAbs, c.isDigit = true := fun _ =>
    Decimal.isDigit_of_mem_digits
  rw [Decimal.ofInt, String.toList_ofList]
  split
  · exact ⟨['-'], _, rfl, .inr rfl, Nat.toDigits_ne_nil, all⟩
  · exact ⟨[], _, rfl, .inl rfl, Nat.toDigits_ne_nil, all⟩

end EdgeExpression
