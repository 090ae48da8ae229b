import EdgeExpression.Lexeme

/-!
# Reading one lexeme

A scan looks at the beginning of a text and either finds the longest lexeme there or
is stuck. In both cases it tells which characters it read; a scan that is stuck has
read exactly as far as some lexeme could still have followed, so the character
behind what it read is the one at fault, or the text ended too early.

Blanks are not the scan's concern: it expects a lexeme at the very first character.
-/
namespace EdgeExpression

/-- What stands at the beginning of a text. -/
inductive Scan where
  /-- A lexeme, and the text it was read from. -/
  | found (lexeme : Lexeme) (read : List Char)
  /-- No lexeme; the text that might have begun one. -/
  | stuck (read : List Char)
deriving Repr, DecidableEq, Inhabited

/-- The characters of names: the ASCII letters and digits and the underscore. -/
def isNameChar (c : Char) : Bool := c.isAlphanum || c == '_'

/-- The quote around literals. -/
def isQuote (c : Char) : Bool := c == '\''

/-- The lexemes with one fixed spelling. One that begins with another comes before it,
so the first match is the longest. -/
def symbols : List Lexeme :=
  [.openParen, .closeParen, .openBracket, .closeBracket, .openBrace, .closeBrace,
   .comma, .colon,
   .comparison .equal, .comparison .notEqual, .not,
   .comparison .lessOrEqual, .comparison .less,
   .comparison .greaterOrEqual, .comparison .greater,
   .connective .doubleAnd, .connective .and, .connective .doubleOr, .connective .or]

namespace Scan

/-- The text that a scan has read. -/
def read : Scan → List Char
  | found _ read => read
  | stuck read => read

/-- Reads the delimiter behind a name, given the opening and the name that were read
before it. An empty name is refused whatever follows it. -/
def delimited (opening : List Char) (delimiter : Char → Option (String → Lexeme)) :
    (letters rest : List Char) → Scan
  | [], _ => .stuck opening
  | letters, [] => .stuck (opening ++ letters)
  | letters, c :: _ =>
      match delimiter c with
      | some lexeme => .found (lexeme (String.ofList letters)) (opening ++ letters ++ [c])
      | none => .stuck (opening ++ letters)

/-- Reads a name and its delimiter behind an opening that was read before. -/
def name (opening text : List Char) (delimiter : Char → Option (String → Lexeme)) : Scan :=
  delimited opening delimiter (text.takeWhile isNameChar) (text.dropWhile isNameChar)

/-- Behind a dollar sign and a parenthesis, a name is a variable or opens a member. -/
def enclosedName (c : Char) : Option (String → Lexeme) :=
  if c = ')' then some .variable else if c = '{' then some .member else none

/-- Directly behind a dollar sign, a name opens a call. -/
def bareName (c : Char) : Option (String → Lexeme) :=
  if c = '(' then some .call else none

/-- Reads what stands behind a dollar sign. -/
def reference : List Char → Scan
  | '(' :: text => name ['$', '('] text enclosedName
  | text => name ['$'] text bareName

/-- The content of a literal in triple quotes, given the text behind the opening
ones. The first run of three or more quotes closes it with its last three; the
quotes of the run before those belong to the content. -/
def tripleContent? : List Char → Option (List Char)
  | '\'' :: '\'' :: '\'' :: text => some (text.takeWhile isQuote)
  | c :: text => (tripleContent? text).map (c :: ·)
  | [] => none

/-- Reads a literal behind its first quote. Two more quotes open a literal in triple
quotes; otherwise the next quote closes it. Without a closing quote the whole text
is read. -/
def literal : List Char → Scan
  | '\'' :: '\'' :: text =>
      match tripleContent? text with
      | some content =>
          .found (.literal (String.ofList content))
            (['\'', '\'', '\''] ++ content ++ ['\'', '\'', '\''])
      | none => .stuck (['\'', '\'', '\''] ++ text)
  | text =>
      match text.dropWhile (!isQuote ·) with
      | [] => .stuck ('\'' :: text)
      | _ :: _ =>
          .found (.literal (String.ofList (text.takeWhile (!isQuote ·))))
            (['\''] ++ text.takeWhile (!isQuote ·) ++ ['\''])

/-- Reads the digits of a numeral behind its sign, which may be empty. -/
def numeral (sign text : List Char) : Scan :=
  match text.takeWhile Char.isDigit with
  | [] => .stuck sign
  | digits => .found (.number (String.ofList (sign ++ digits))) (sign ++ digits)

/-- Reads a lexeme with a fixed spelling. Only a lone equals sign is the beginning of
such a lexeme without being one. -/
def symbol (text : List Char) : Scan :=
  match symbols.find? fun lexeme => lexeme.spelling.isPrefixOf text with
  | some lexeme => .found lexeme lexeme.spelling
  | none => .stuck (if text.head? = some '=' then ['='] else [])

end Scan

/-- Reads the lexeme at the beginning of a text, decided by its first character. -/
def scan : List Char → Scan
  | [] => .stuck []
  | c :: text =>
      if c = '$' then Scan.reference text
      else if isQuote c then Scan.literal text
      else if c = '-' then Scan.numeral ['-'] text
      else if c.isDigit then Scan.numeral [] (c :: text)
      else Scan.symbol (c :: text)

/-! ## What a scan reads is the beginning of its text -/

namespace Scan

/-- What is read of a delimited name stands at the beginning of the text. -/
theorem delimited_read_isPrefix (opening letters rest : List Char)
    (delimiter : Char → Option (String → Lexeme)) :
    (delimited opening delimiter letters rest).read <+: opening ++ (letters ++ rest) := by
  unfold delimited
  split
  · exact List.prefix_append _ _
  · rw [List.append_nil]
    exact List.prefix_rfl
  · next c behind _ =>
      split
      · exact ⟨behind, by simp [read]⟩
      · exact ⟨c :: behind, by simp [read]⟩

/-- What is read of a name stands at the beginning of the text. -/
theorem name_read_isPrefix (opening text : List Char)
    (delimiter : Char → Option (String → Lexeme)) :
    (name opening text delimiter).read <+: opening ++ text := by
  have whole := delimited_read_isPrefix opening (text.takeWhile isNameChar)
    (text.dropWhile isNameChar) delimiter
  rwa [List.takeWhile_append_dropWhile] at whole

/-- What is read of a reference stands at the beginning of the text. -/
theorem reference_read_isPrefix (text : List Char) : (reference text).read <+: '$' :: text := by
  unfold reference
  split
  · exact name_read_isPrefix _ _ _
  · exact name_read_isPrefix _ _ _

/-- The content and the three quotes that close it begin the text behind the opening
quotes. Proof: where the first run of quotes begins, the content there consists of
quotes, so it may trade places with the three quotes in front of it. -/
theorem tripleContent?_isPrefix {text content : List Char}
    (closed : tripleContent? text = some content) :
    content ++ ['\'', '\'', '\''] <+: text := by
  induction text using tripleContent?.induct generalizing content with
  | case1 text =>
      obtain rfl : text.takeWhile isQuote = content := by simpa [tripleContent?] using closed
      have quotes : ∀ run : List Char, (∀ c ∈ run, isQuote c = true) →
          run ++ ['\'', '\'', '\''] = ['\'', '\'', '\''] ++ run := by
        intro run
        induction run with
        | nil => simp
        | cons c run induction =>
            intro all
            obtain rfl : c = '\'' := by simpa [isQuote] using all c (by simp)
            rw [List.cons_append, induction fun d member => all d (by simp [member])]
            rfl
      rw [quotes _ (List.all_eq_true.mp List.all_takeWhile)]
      exact ⟨text.dropWhile isQuote, by simp⟩
  | case2 c text notRun induction =>
      rw [tripleContent?] at closed
      · obtain ⟨tail, tailClosed, rfl⟩ := Option.map_eq_some_iff.mp closed
        exact (List.prefix_cons_inj c).mpr (induction tailClosed)
      · exact notRun
  | case3 => simp [tripleContent?] at closed

/-- What is read of a literal stands at the beginning of the text. -/
theorem literal_read_isPrefix (text : List Char) : (literal text).read <+: '\'' :: text := by
  unfold literal
  split
  · next text =>
      split
      · next content closed =>
          rw [read]
          simpa using tripleContent?_isPrefix closed
      · exact List.prefix_rfl
  · split
    · exact List.prefix_rfl
    · next c behind closed =>
        have quote : c = '\'' := by
          have refused := List.head?_dropWhile_not (!isQuote ·) text
          rw [closed] at refused
          simpa [isQuote] using refused
        have whole := List.takeWhile_append_dropWhile (p := (!isQuote ·)) (l := text)
        rw [closed, quote] at whole
        exact ⟨behind, by rw [read]; simpa using whole⟩

/-- What is read of a numeral stands at the beginning of the text. -/
theorem numeral_read_isPrefix (sign text : List Char) :
    (numeral sign text).read <+: sign ++ text := by
  unfold numeral
  split
  · exact List.prefix_append _ _
  · exact List.prefix_append_right_inj sign |>.mpr (List.takeWhile_prefix _)

/-- What is read of a symbol stands at the beginning of the text. -/
theorem symbol_read_isPrefix (text : List Char) : (symbol text).read <+: text := by
  unfold symbol
  split
  · next lexeme matched =>
      have isPrefix := List.find?_some matched
      exact List.isPrefixOf_iff_prefix.mp isPrefix
  · rw [read]
    cases text with
    | nil => simp
    | cons c text => by_cases equals : c = '=' <;> simp [equals]

end Scan

/-- A scan reads the beginning of its text. -/
theorem scan_read_isPrefix (text : List Char) : (scan text).read <+: text := by
  unfold scan
  split
  · exact List.prefix_rfl
  · next c text =>
      split
      · next dollar => exact dollar ▸ Scan.reference_read_isPrefix text
      · split
        · next quote =>
            obtain rfl : c = '\'' := by simpa [isQuote] using quote
            exact Scan.literal_read_isPrefix text
        · split
          · next minus => exact minus ▸ Scan.numeral_read_isPrefix ['-'] text
          · split
            · exact Scan.numeral_read_isPrefix [] (c :: text)
            · exact Scan.symbol_read_isPrefix (c :: text)

/-! ## A lexeme is never empty -/

namespace Scan

/-- Something is read of a name that is found. -/
theorem name_read_ne_nil {opening text read : List Char} {lexeme : Lexeme}
    {delimiter : Char → Option (String → Lexeme)}
    (result : name opening text delimiter = .found lexeme read) : read ≠ [] := by
  unfold name delimited at result
  split at result
  · cases result
  · cases result
  · split at result <;> cases result
    simp

/-- Something is read of a literal that is found. -/
theorem literal_read_ne_nil {text read : List Char} {lexeme : Lexeme}
    (result : literal text = .found lexeme read) : read ≠ [] := by
  unfold literal at result
  split at result <;> split at result <;> cases result <;> simp

/-- Something is read of a numeral that is found. -/
theorem numeral_read_ne_nil {sign text read : List Char} {lexeme : Lexeme}
    (result : numeral sign text = .found lexeme read) : read ≠ [] := by
  unfold numeral at result
  split at result
  · cases result
  · next nonempty =>
      cases result
      simpa using fun _ => nonempty

/-- Every symbol is spelled by some character. -/
theorem spelling_ne_nil_of_mem_symbols : ∀ lexeme ∈ symbols, lexeme.spelling ≠ [] := by
  decide

/-- Something is read of a symbol that is found. -/
theorem symbol_read_ne_nil {text read : List Char} {lexeme : Lexeme}
    (result : symbol text = .found lexeme read) : read ≠ [] := by
  unfold symbol at result
  split at result
  · next matched =>
      cases result
      exact spelling_ne_nil_of_mem_symbols _ (List.mem_of_find?_eq_some matched)
  · cases result

end Scan

/-- A scan that finds a lexeme has read at least one character. -/
theorem scan_read_ne_nil {text read : List Char} {lexeme : Lexeme}
    (result : scan text = .found lexeme read) : read ≠ [] := by
  unfold scan at result
  split at result
  · cases result
  · split at result
    · unfold Scan.reference at result
      split at result <;> exact Scan.name_read_ne_nil result
    · split at result
      · exact Scan.literal_read_ne_nil result
      · split at result
        · exact Scan.numeral_read_ne_nil result
        · split at result
          · exact Scan.numeral_read_ne_nil result
          · exact Scan.symbol_read_ne_nil result

end EdgeExpression
