import EdgeExpression.Proofs.OwnText

/-!
# The lexical grammar

The lexical grammar tells which texts are lexemes. Some of them begin others, so a text may begin
with several lexemes, and then a scan finds the longest one.

A lexeme that is not the longest is continued by the next character. What comes of it is another
lexeme, which may be continued in turn; but for two quotes, which a third one does not continue
since the grammar takes the three of them for something else. So every lexeme at the beginning of a
text leads on to one that is not continued, and that is the one a scan finds.
-/
namespace EdgeExpression

/-! ## The lexical grammar -/

/-- The texts of lexemes. In a literal in triple quotes nothing but quotes stands behind three
quotes in a row. The surroundings matter for single quotes only: a text that begins with
three quotes begins with no literal in single quotes, which would have to be an empty one. -/
inductive LexemeAt (text : List Char) : List Char → Lexeme → Prop where
  | call {name : String} : IsName name →
      LexemeAt text ('$' :: name.toList ++ ['(']) (.call name)
  | variableName {name : String} : IsName name →
      LexemeAt text ('$' :: '(' :: name.toList ++ [')']) (.variable name)
  | member {name : String} : IsName name →
      LexemeAt text ('$' :: '(' :: name.toList ++ ['{']) (.member name)
  | number {numeral : String} : IsNumeral numeral.toList →
      LexemeAt text numeral.toList (.number numeral)
  | openBracket : LexemeAt text ['['] .openBracket
  | openBrace : LexemeAt text ['{'] .openBrace
  | openParen : LexemeAt text ['('] .openParen
  | closeParen : LexemeAt text [')'] .closeParen
  | closeBrace : LexemeAt text ['}'] .closeBrace
  | closeBracket : LexemeAt text [']'] .closeBracket
  | comma : LexemeAt text [','] .comma
  | colon : LexemeAt text [':'] .colon
  | comparison (operator : Comparison) :
      LexemeAt text operator.symbol.toList (.comparison operator)
  | connective (operator : Connective) :
      LexemeAt text operator.symbol.toList (.connective operator)
  | not : LexemeAt text ['!'] .not
  | singleQuoted {content : String} : '\'' ∉ content.toList →
      ¬ ['\'', '\'', '\''] <+: text →
      LexemeAt text (['\''] ++ content.toList ++ ['\'']) (.literal content)
  | tripleQuoted {content : String} : IsWritable content.toList →
      LexemeAt text (['\'', '\'', '\''] ++ content.toList ++ ['\'', '\'', '\''])
        (.literal content)

/-- A text begins with a lexeme. -/
def BeginsWith (text own : List Char) (lexeme : Lexeme) : Prop :=
  own <+: text ∧ LexemeAt text own lexeme

/-- The longest lexeme that a text begins with; any other one is shorter. -/
def IsLongest (text own : List Char) (lexeme : Lexeme) : Prop :=
  BeginsWith text own lexeme ∧ ∀ other value, BeginsWith text other value →
    other.length < own.length ∨ other = own ∧ value = lexeme

variable {text own rest : List Char} {lexeme : Lexeme}

/-- What a scan finds is a lexeme of the grammar. -/
theorem beginsWith_of_scan (found : scan (own ++ rest) = .found lexeme own) :
    BeginsWith (own ++ rest) own lexeme := by
  obtain ⟨legible, written, boundary⟩ := scan_found_iff.mp found
  refine ⟨List.prefix_append own rest, ?_⟩
  cases lexeme with
  | literal content =>
      rcases written with rfl | ⟨free, rfl⟩
      · exact .tripleQuoted legible
      · refine .singleQuoted free ?_
        rintro ⟨behind, split⟩
        cases letters : content.toList with
        | nil =>
            obtain rfl : '\'' :: behind = rest := by simpa [letters] using split
            simp [Lexeme.continues, letters, isQuote] at boundary
        | cons c inside =>
            obtain ⟨rfl, _⟩ : '\'' = c ∧ _ := by simpa [letters] using split
            simp [letters] at free
  | call | «variable» | member | number =>
      rw [show own = _ from written]
      constructor
      exact legible
  | _ =>
      rw [show own = _ from written]
      constructor

/-- A lexeme of the grammar is legible and written as itself. -/
theorem LexemeAt.written (lexemeAt : LexemeAt text own lexeme) :
    lexeme.Legible ∧ lexeme.Written own := by
  cases lexemeAt with
  | singleQuoted free _ => exact ⟨isWritable_of_not_mem free, .inr ⟨free, rfl⟩⟩
  | tripleQuoted writable => exact ⟨writable, .inl rfl⟩
  | call named | variableName named | member named => exact ⟨named, rfl⟩
  | number numeral => exact ⟨numeral, rfl⟩
  | _ => exact ⟨trivial, rfl⟩

/-- Two quotes are a lexeme only where no third one continues them. -/
theorem LexemeAt.not_continued (lexemeAt : LexemeAt text own lexeme) (split : text = own ++ rest)
    (empty : own = ['\'', '\'']) : ∀ c ∈ rest.head?, lexeme.continues own c = false := by
  cases lexemeAt with
  | @singleQuoted content _ single =>
      intro c head
      by_contra continued
      obtain ⟨quote, _⟩ : isQuote c = true ∧ _ := by simpa [Lexeme.continues] using continued
      obtain rfl : c = '\'' := by simpa [isQuote] using quote
      obtain ⟨tail, rfl⟩ := List.head?_eq_some_iff.mp head
      exact single ⟨tail, by rw [split, empty]; rfl⟩
  | number numeral =>
      obtain ⟨sign, digits, shape, rfl | rfl, _, all⟩ := numeral
      · obtain rfl : digits = ['\'', '\''] := shape.symm.trans empty
        cases all '\'' List.mem_cons_self
      · cases shape.symm.trans empty
  | comparison operator => cases operator <;> simp [Comparison.symbol] at empty
  | connective operator => cases operator <;> simp [Connective.symbol] at empty
  | tripleQuoted | _ => simp at empty

/-- A writable text stays writable with a further quote at its end. -/
theorem IsWritable.concat_quote {content : List Char} (writable : IsWritable content) :
    IsWritable (content ++ ['\'']) := by
  intro before c behind split
  rcases List.eq_nil_or_concat behind with rfl | ⟨inside, last, rfl⟩
  · have ends : content ++ ['\''] = (before ++ ['\'', '\'', '\'']) ++ [c] := by simpa using split
    simpa using (List.append_inj' ends rfl).2.symm
  · have inner : content = before ++ ['\'', '\'', '\''] ++ c :: inside := by
      have whole : content ++ ['\''] = (before ++ ['\'', '\'', '\''] ++ c :: inside) ++ [last] := by
        simpa using split
      exact (List.append_inj' whole rfl).1
    exact writable _ _ _ inner

/-- A character that continues a lexeme makes another one of it, unless it is a third quote. -/
theorem exists_continued {c : Char} (legible : lexeme.Legible) (written : lexeme.Written own)
    (continued : lexeme.continues own c = true) (other : own ≠ ['\'', '\'']) :
    ∃ longer : Lexeme, longer.Legible ∧ longer.Written (own ++ [c]) := by
  cases lexeme with
  | literal content =>
      obtain ⟨quote, second⟩ : isQuote c = true ∧ own[1]? = some '\'' := by
        simpa [Lexeme.continues] using continued
      obtain rfl : c = '\'' := by simpa [isQuote] using quote
      rcases written with rfl | ⟨free, rfl⟩
      · refine ⟨.literal (String.ofList (content.toList ++ ['\''])), ?_, .inl ?_⟩
        · simpa [Lexeme.Legible] using legible.concat_quote
        · simp
      · cases letters : content.toList with
        | nil => simp [letters] at other
        | cons d inside =>
            obtain rfl : d = '\'' := by simpa [letters] using second
            simp [letters] at free
  | number numeral =>
      obtain ⟨sign, digits, split, signed, nonempty, all⟩ := legible
      refine ⟨.number (String.ofList (numeral.toList ++ [c])), ?_, ?_⟩
      · refine ⟨sign, digits ++ [c], by simp [split], signed, by simp, ?_⟩
        exact List.forall_mem_append.mpr ⟨all, List.forall_mem_singleton.mpr continued⟩
      · obtain rfl : own = numeral.toList := written
        simp [Lexeme.Written, Lexeme.spelling, Lexeme.cargo]
  | not =>
      obtain rfl : c = '=' := by simpa [Lexeme.continues, Lexeme.absorbs] using continued
      exact ⟨.comparison .notEqual, trivial, (show own = _ from written) ▸ rfl⟩
  | comparison operator =>
      obtain rfl : own = _ := written
      cases operator with
      | less =>
          obtain rfl : c = '=' := by simpa [Lexeme.continues, Lexeme.absorbs] using continued
          exact ⟨.comparison .lessOrEqual, trivial, rfl⟩
      | greater =>
          obtain rfl : c = '=' := by simpa [Lexeme.continues, Lexeme.absorbs] using continued
          exact ⟨.comparison .greaterOrEqual, trivial, rfl⟩
      | _ => cases continued
  | connective operator =>
      obtain rfl : own = _ := written
      cases operator with
      | and =>
          obtain rfl : c = '&' := by simpa [Lexeme.continues, Lexeme.absorbs] using continued
          exact ⟨.connective .doubleAnd, trivial, rfl⟩
      | or =>
          obtain rfl : c = '|' := by simpa [Lexeme.continues, Lexeme.absorbs] using continued
          exact ⟨.connective .doubleOr, trivial, rfl⟩
      | _ => cases continued
  | _ => cases continued

/-- A lexeme at the beginning of a text is found by a scan, or a longer one is. Proof: by induction
on the text behind it, which is used up as long as it continues the lexeme. -/
theorem exists_scan_found (legible : lexeme.Legible) (written : lexeme.Written own)
    (notTriple : own = ['\'', '\''] → ∀ c ∈ rest.head?, lexeme.continues own c = false) :
    ∃ found read, scan (own ++ rest) = .found found read ∧
      (own.length < read.length ∨ own = read ∧ lexeme = found) := by
  induction rest generalizing own lexeme with
  | nil =>
      exact ⟨lexeme, own, scan_found_iff.mpr ⟨legible, written, by simp⟩, .inr ⟨rfl, rfl⟩⟩
  | cons c rest induction =>
      cases continued : lexeme.continues own c with
      | false =>
          have boundary : ∀ d ∈ (c :: rest).head?, lexeme.continues own d = false := by
            simpa using continued
          exact ⟨lexeme, own, scan_found_iff.mpr ⟨legible, written, boundary⟩, .inr ⟨rfl, rfl⟩⟩
      | true =>
          have other : own ≠ ['\'', '\''] := by
            intro empty
            simp [notTriple empty c rfl] at continued
          obtain ⟨longer, legibleToo, writtenToo⟩ :=
            exists_continued legible written continued other
          have more : own ++ [c] ≠ ['\'', '\''] := by
            intro empty
            obtain ⟨rfl, _⟩ : own = ['\''] ∧ c = '\'' := by
              simpa using List.append_inj' (empty.trans (rfl : _ = ['\''] ++ ['\''])) rfl
            have found : scan (['\''] ++ []) = .found lexeme ['\''] :=
              scan_found_iff.mpr ⟨legible, written, by simp⟩
            cases found
          obtain ⟨found, read, scanned, longest⟩ :=
            induction legibleToo writtenToo fun empty => absurd empty more
          refine ⟨found, read, by simpa using scanned, .inl ?_⟩
          rcases longest with further | ⟨rfl, _⟩
          · simp at further
            omega
          · simp

/-! ## The longest lexeme -/

/-- A scan finds the longest lexeme that its text begins with. -/
theorem isLongest_of_scan (found : scan (own ++ rest) = .found lexeme own) :
    IsLongest (own ++ rest) own lexeme := by
  refine ⟨beginsWith_of_scan found, ?_⟩
  rintro other value ⟨⟨behind, split⟩, lexemeAt⟩
  obtain ⟨legible, written⟩ := lexemeAt.written
  obtain ⟨longest, read, scanned, further⟩ :=
    exists_scan_found legible written (lexemeAt.not_continued split.symm)
  rw [split, found] at scanned
  obtain ⟨rfl, rfl⟩ := Scan.found.inj scanned
  exact further

/-- Where a text begins with a lexeme, a scan finds one. -/
theorem exists_scan_of_beginsWith (begins : BeginsWith text own lexeme) :
    ∃ found read, scan text = .found found read := by
  obtain ⟨⟨behind, rfl⟩, lexemeAt⟩ := begins
  obtain ⟨legible, written⟩ := lexemeAt.written
  obtain ⟨found, read, scanned, _⟩ :=
    exists_scan_found legible written (lexemeAt.not_continued rfl)
  exact ⟨found, read, scanned⟩

/-- A scan finds a lexeme exactly if it is the longest one that its text begins with. -/
theorem scan_found_iff_isLongest :
    scan (own ++ rest) = .found lexeme own ↔ IsLongest (own ++ rest) own lexeme := by
  refine ⟨isLongest_of_scan, fun ⟨begins, longest⟩ => ?_⟩
  obtain ⟨found, read, scanned⟩ := exists_scan_of_beginsWith begins
  obtain ⟨behind, split⟩ := scan_read_isPrefix (own ++ rest)
  rw [scanned, Scan.read] at split
  obtain ⟨foundBegins, foundLongest⟩ := isLongest_of_scan (split ▸ scanned)
  rw [split] at foundBegins foundLongest
  rcases longest _ _ foundBegins with shorter | ⟨rfl, rfl⟩
  · rcases foundLongest _ _ begins with longer | ⟨rfl, _⟩ <;> omega
  · exact scanned

end EdgeExpression
