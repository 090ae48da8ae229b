import EdgeExpression.Proofs.Spelling
import EdgeExpression.Text.Blank

/-!
# The text a lexeme is read from

Every lexeme but a literal has one text only, its spelling. A literal is written in single
quotes, which its text must not hold, or in triple quotes.

The law of reading one lexeme is an equivalence: a scan finds a lexeme exactly where a text
of it stands, unless the character behind would be read as more of it. So a scan looks at
one character beyond what it reads, and it never matters what comes later.
-/
namespace EdgeExpression

namespace Lexeme

/-- The texts that a lexeme may be read from. -/
def Written : Lexeme → List Char → Prop
  | .literal content, text =>
      text = ['\'', '\'', '\''] ++ content.toList ++ ['\'', '\'', '\''] ∨
        '\'' ∉ content.toList ∧ text = ['\''] ++ content.toList ++ ['\'']
  | lexeme, text => text = lexeme.spelling

/-- Whether a character directly behind a text of a lexeme is read as more of it. A quote
is more of a literal only behind triple quotes or behind an empty literal, and in both
cases the second character of the literal's text is a quote as well. -/
def continues : Lexeme → List Char → Char → Bool
  | .literal _, text, c => isQuote c && text[1]? == some '\''
  | lexeme, _, c => lexeme.absorbs c

variable {lexeme : Lexeme} {text rest : List Char}

/-- The spelling is one of the texts. -/
theorem written_spelling (lexeme : Lexeme) : lexeme.Written lexeme.spelling := by
  cases lexeme with
  | literal content =>
      by_cases quote : '\'' ∈ content.toList
      · exact .inl (by simp [spelling, quoted, quote])
      · exact .inr ⟨quote, by simp [spelling, quoted, quote]⟩
  | _ => rfl

/-- A lexeme's text begins as its spelling does. -/
theorem Written.head? (written : lexeme.Written text) : text.head? = lexeme.spelling.head? := by
  cases lexeme with
  | literal content =>
      have quote : (quoted content.toList).head? = some '\'' := by
        unfold quoted
        split <;> rfl
      rcases written with rfl | ⟨_, rfl⟩
      · exact quote.symm
      · exact quote.symm
  | _ => rw [show text = _ from written]

/-- No text of a lexeme ends with a minus sign, and only that of a numeral ends with a
digit. -/
theorem Written.last (written : lexeme.Written text) (legible : lexeme.Legible) {c : Char}
    (last : c ∈ text.getLast?) :
    c ≠ '-' ∧ (c.isDigit = true → ∃ numeral, lexeme = .number numeral) := by
  cases lexeme with
  | literal content =>
      have quote : text.getLast? = some '\'' := by
        rcases written with rfl | ⟨_, rfl⟩
        · exact List.getLast?_append_of_ne_nil _ (by simp)
        · exact List.getLast?_concat
      obtain rfl : '\'' = c := by simpa [quote] using last
      simp
  | number numeral =>
      obtain ⟨sign, digits, split, signed, nonempty, all⟩ := legible
      rw [show text = numeral.toList from written, split, List.getLast?_append_of_ne_nil _ nonempty]
        at last
      have digit : c.isDigit = true := all c (List.mem_of_mem_getLast? last)
      refine ⟨?_, fun _ => ⟨numeral, rfl⟩⟩
      rintro rfl
      exact absurd digit (by decide)
  | comparison operator =>
      rw [show text = _ from written] at last
      cases operator <;> simp [spelling, cargo, Comparison.symbol] at last <;> subst last <;> simp
  | connective operator =>
      rw [show text = _ from written] at last
      cases operator <;> simp [spelling, cargo, Connective.symbol] at last <;> subst last <;> simp
  | call | «variable» | member =>
      rw [show text = _ from written, spelling, List.getLast?_concat] at last
      obtain rfl := Option.some.inj last
      simp
  | _ =>
      rw [show text = _ from written] at last
      simp [spelling, cargo, negationSymbol] at last
      subst last
      simp

/-- No lexeme goes on with a blank. -/
theorem absorbs_of_isBlank (lexeme : Lexeme) {c : Char} (blank : isBlank c = true) :
    lexeme.absorbs c = false := by
  simp only [isBlank, Bool.or_eq_true, beq_iff_eq] at blank
  rcases blank with ((rfl | rfl) | rfl) | rfl <;>
    cases lexeme with
    | comparison operator => cases operator <;> rfl
    | connective operator => cases operator <;> rfl
    | _ => rfl

/-- Whatever continues a text of a lexeme is of the class that the lexeme absorbs. -/
theorem absorbs_of_continues {c : Char} (more : lexeme.continues text c = true) :
    lexeme.absorbs c = true := by
  cases lexeme with
  | literal content =>
      obtain ⟨quote, _⟩ : isQuote c = true ∧ _ := by simpa [continues] using more
      exact quote
  | _ => exact more

end Lexeme

/-! ## Whatever is found is such a text -/

namespace Scan

variable {text own rest : List Char} {lexeme : Lexeme}

/-- A literal that is found is written as it was read. -/
theorem literal_found_written (result : literal text = .found lexeme own) :
    lexeme.Written own := by
  unfold literal at result
  split at result
  · split at result
    · cases result
      exact .inl (by simp)
    · cases result
  · split at result
    · cases result
    · cases result
      refine .inr ⟨?_, by simp⟩
      intro member
      rw [String.toList_ofList] at member
      have refused := List.all_eq_true.mp (List.all_takeWhile (l := text)) _ member
      simp [isQuote] at refused

/-- A numeral that is found is written as it was read. -/
theorem numeral_found_written {sign : List Char}
    (result : numeral sign text = .found lexeme own) : lexeme.Written own := by
  unfold numeral at result
  split at result
  · cases result
  · cases result
    simp [Lexeme.Written, Lexeme.spelling, Lexeme.cargo]

/-- Only symbols are found as symbols. -/
theorem mem_symbols_of_found (result : symbol text = .found lexeme own) : lexeme ∈ symbols := by
  unfold symbol at result
  split at result
  · next matched =>
      cases result
      exact List.mem_of_find?_eq_some matched
  · cases result

/-- A symbol that is found is written as it was read. -/
theorem symbol_found_written (result : symbol text = .found lexeme own) :
    lexeme.Written own := by
  unfold symbol at result
  split at result
  · cases result
    exact Lexeme.written_spelling _
  · cases result

/-- Where a run of quotes is read, it is read to its end. -/
theorem boundary_of_takeWhile {p : Char → Bool} {run : List Char}
    (taken : (run ++ rest).takeWhile p = run) (inside : ∀ c ∈ run, p c = true) :
    ∀ c ∈ rest.head?, p c = false := by
  rw [List.takeWhile_append_of_pos inside, List.append_right_eq_self] at taken
  intro c head
  obtain ⟨tail, rfl⟩ := List.head?_eq_some_iff.mp head
  by_contra more
  simp [List.takeWhile_cons, more] at taken

/-- The quotes that close a literal in triple quotes are the last ones of their run. Proof:
by induction on the search for the run. Where it begins, the content consists of quotes,
which may trade places with the closing ones; so it was taken up to the end of the run. -/
theorem tripleContent?_boundary {content : List Char} (closed : tripleContent? text = some content)
    (split : text = content ++ ['\'', '\'', '\''] ++ rest) :
    ∀ c ∈ rest.head?, isQuote c = false := by
  induction text using tripleContent?.induct generalizing content with
  | case1 text =>
      have taken : text.takeWhile isQuote = content := by simpa [tripleContent?] using closed
      have quotes : ∀ c ∈ content, isQuote c = true := by
        rw [← taken]
        exact List.all_eq_true.mp List.all_takeWhile
      rw [quotes_comm quotes] at split
      obtain rfl : text = content ++ rest := by simpa using split
      exact boundary_of_takeWhile taken quotes
  | case2 c text notRun induction =>
      rw [tripleContent?] at closed
      · obtain ⟨tail, tailClosed, rfl⟩ := Option.map_eq_some_iff.mp closed
        exact induction tailClosed (List.cons.inj split).2
      · exact notRun
  | case3 => simp [tripleContent?] at closed

/-- A literal that is found does not go on behind what was read. -/
theorem literal_found_boundary (result : literal text = .found lexeme own)
    (split : '\'' :: text = own ++ rest) :
    ∀ c ∈ rest.head?, lexeme.continues own c = false := by
  unfold literal at result
  split at result
  · next text =>
      split at result
      · next content closed =>
          cases result
          have behind : text = content ++ ['\'', '\'', '\''] ++ rest := by simpa using split
          have boundary := tripleContent?_boundary closed behind
          intro c head
          simp [Lexeme.continues, boundary c head]
      · cases result
  · next notTriple =>
      split at result
      · cases result
      · cases result
        intro c head
        obtain ⟨tail, rfl⟩ := List.head?_eq_some_iff.mp head
        cases content : text.takeWhile (!isQuote ·) with
        | nil =>
            have empty : text = '\'' :: c :: tail := by simpa [content] using split
            have other : c ≠ '\'' := fun same => notTriple tail (by rw [empty, same])
            simp [Lexeme.continues, isQuote, other]
        | cons d inside =>
            have refused := List.all_eq_true.mp (List.all_takeWhile (l := text)) d
              (content ▸ List.mem_cons_self)
            have other : d ≠ '\'' := by simpa [isQuote] using refused
            simp [Lexeme.continues, other]

/-- A numeral that is found does not go on behind what was read. -/
theorem numeral_found_boundary {sign : List Char} (result : numeral sign text = .found lexeme own)
    (split : sign ++ text = own ++ rest) :
    ∀ c ∈ rest.head?, lexeme.continues own c = false := by
  unfold numeral at result
  split at result
  · cases result
  · cases result
    have remains : (text.takeWhile Char.isDigit ++ rest).takeWhile Char.isDigit =
        text.takeWhile Char.isDigit := by
      have same : text = text.takeWhile Char.isDigit ++ rest := by simpa using split
      rw [← same]
    exact boundary_of_takeWhile remains (List.all_eq_true.mp List.all_takeWhile)

/-- A symbol that a character continues is not found in front of it, since the longer
symbol comes first. -/
theorem symbol_found_boundary (result : symbol (own ++ rest) = .found lexeme own) :
    ∀ c ∈ rest.head?, lexeme.continues own c = false := by
  intro c head
  obtain ⟨tail, rfl⟩ := List.head?_eq_some_iff.mp head
  by_contra more
  have absorbed := Lexeme.absorbs_of_continues (by simpa using more)
  have member := mem_symbols_of_found result
  have written := symbol_found_written result
  unfold Lexeme.absorbs at absorbed
  split at absorbed
  case h_1 | h_2 => simp [symbols] at member
  case h_8 => cases absorbed
  all_goals
    obtain rfl : c = _ := by simpa using absorbed
    obtain rfl : own = _ := written
    cases result

end Scan

/-- Whatever a scan finds, it finds at a text of it. -/
theorem scan_found_written {text own : List Char} {lexeme : Lexeme}
    (result : scan text = .found lexeme own) : lexeme.Written own := by
  rcases scan_found_cases result with
    ⟨_, _, reference⟩ | ⟨_, _, literal⟩ | ⟨_, _, _, _, numeral⟩ | symbol
  · obtain ⟨letters, _, rfl, _⟩ := Scan.reference_found reference
    exact Lexeme.written_spelling lexeme
  · exact Scan.literal_found_written literal
  · exact Scan.numeral_found_written numeral
  · exact Scan.symbol_found_written symbol

/-- What a scan reads begins with the lexeme's first character. -/
theorem exists_leadChar_of_scan {text own : List Char} {lexeme : Lexeme}
    (result : scan text = .found lexeme own) : ∃ tail, own = lexeme.leadChar :: tail := by
  obtain ⟨c, tail, rfl⟩ := List.exists_cons_of_ne_nil (scan_read_ne_nil result)
  have same := (scan_found_written result).head?
  refine ⟨tail, ?_⟩
  rw [Lexeme.leadChar, List.headD_eq_head?_getD, ← same]
  rfl

variable {own rest : List Char} {lexeme : Lexeme}

/-- A scan reads all that belongs to a lexeme: the character behind does not continue it. -/
theorem scan_found_boundary (result : scan (own ++ rest) = .found lexeme own) :
    ∀ c ∈ rest.head?, lexeme.continues own c = false := by
  rcases scan_found_cases result with
    ⟨_, _, reference⟩ | ⟨_, split, literal⟩ | ⟨_, _, split, _, numeral⟩ | symbol
  · obtain ⟨letters, _, _, rfl | rfl | rfl⟩ := Scan.reference_found reference <;>
      exact fun _ _ => rfl
  · exact Scan.literal_found_boundary literal split.symm
  · exact Scan.numeral_found_boundary numeral split.symm
  · exact Scan.symbol_found_boundary symbol

/-- A scan finds a lexeme exactly where a text of it stands, if the lexeme is legible and
the next character does not continue the text. -/
theorem scan_found_iff : scan (own ++ rest) = .found lexeme own ↔
    lexeme.Legible ∧ lexeme.Written own ∧ ∀ c ∈ rest.head?, lexeme.continues own c = false := by
  constructor
  · intro result
    exact ⟨scan_found_legible result, scan_found_written result, scan_found_boundary result⟩
  · rintro ⟨legible, written, boundary⟩
    cases lexeme with
    | literal content =>
        rcases written with rfl | ⟨free, rfl⟩
        · have noQuote : ∀ c ∈ rest.head?, isQuote c = false := by
            intro c head
            simpa [Lexeme.continues] using boundary c head
          simpa [-List.append_assoc] using Scan.scan_triple legible noQuote
        · have noQuote : content.toList = [] → ∀ c ∈ rest.head?, isQuote c = false := by
            intro empty c head
            simpa [Lexeme.continues, empty] using boundary c head
          simpa [-List.append_assoc] using Scan.scan_single free noQuote
    | _ =>
        rw [show own = _ from written]
        exact scan_spelling _ rest legible boundary

/-- Nothing is found at a blank. -/
theorem isBlank_of_scan {c : Char} {rest read : List Char} {lexeme : Lexeme}
    (result : scan (c :: rest) = .found lexeme read) : isBlank c = false := by
  by_contra blank
  simp only [isBlank, Bool.not_eq_false, Bool.or_eq_true, beq_iff_eq] at blank
  rcases blank with ((rfl | rfl) | rfl) | rfl <;>
    simp [scan, isQuote, Scan.symbol, symbols, Lexeme.spelling, Lexeme.cargo, Comparison.symbol,
      Connective.symbol, negationSymbol, List.find?, List.isPrefixOf] at result

/-- A scan looks at one character beyond what it finds. So the text behind may be exchanged
for another one that begins alike, or with a blank, or is empty. -/
theorem scan_found_exchange {other : List Char} (result : scan (own ++ rest) = .found lexeme own)
    (alike : ∀ c ∈ other.head?, c ∈ rest.head? ∨ isBlank c = true) :
    scan (own ++ other) = .found lexeme own := by
  obtain ⟨legible, written, boundary⟩ := scan_found_iff.mp result
  refine scan_found_iff.mpr ⟨legible, written, fun c head => ?_⟩
  rcases alike c head with same | blank
  · exact boundary c same
  · by_contra more
    have absorbed := Lexeme.absorbs_of_continues (by simpa using more)
    simp [lexeme.absorbs_of_isBlank blank] at absorbed

end EdgeExpression
