import EdgeExpression.Proofs.Batch
import EdgeExpression.Proofs.SourceMap

/-!
# Listings tell their source

A listing of tokens with their source text loses nothing of the source, although it is text itself
and shows text that may hold anything. Every token has a line, a line has fields between
tabulators, and no field holds a control character, since quoted text writes these in other
characters. So lines and fields are told apart by the only characters that could end them. Which
other characters are hidden does not matter: whether a character stands for itself or is written by
its code point, it is read as what it is.

The readers here know the format of a listing and nothing of tokens or how they are found. What
they read from the line of a token is all that was written there; and the source texts that they
read from the lines of a listing are those the tokens account for, which is all of the source.
-/
namespace EdgeExpression

/-! ## Quoted text -/

namespace Quoted

/-- The character that is meant by a character behind a backslash. -/
def meant : Char → Char
  | 't' => '\t'
  | 'n' => '\n'
  | 'r' => '\r'
  | '0' => '\x00'
  | c => c

/-- The value of a lowercase hexadecimal digit. -/
def hexValue (digit : Char) : Nat :=
  if digit.isDigit then digit.toNat - '0'.toNat else digit.toNat - 'a'.toNat + 10

/-- The value of a code point with one more digit. -/
def appendDigit (value : Nat) (digit : Char) : Nat := 16 * value + hexValue digit

mutual
/-- Reads what is written between quotes. -/
def unescape : List Char → List Char
  | '\\' :: 'u' :: '{' :: rest => unescapeCode 0 rest
  | '\\' :: c :: rest => meant c :: unescape rest
  | c :: rest => c :: unescape rest
  | [] => []
/-- Reads on behind the first digits of a code point, given their value. -/
def unescapeCode (value : Nat) : List Char → List Char
  | '}' :: rest => Char.ofNat value :: unescape rest
  | digit :: rest => unescapeCode (appendDigit value digit) rest
  | [] => []
end

/-- Reads a text between double quotes. -/
def decode (shown : String) : String := String.ofList (unescape shown.toList.tail.dropLast)

/-- The digit of a value is read as the value. -/
theorem hexValue_digitChar : ∀ d < 16, hexValue (Nat.digitChar d) = d := by decide

/-- The hexadecimal digits of a number are read as that number. Proof: by induction on the number,
one digit at a time from its end. -/
theorem foldl_appendDigit_toDigits (n : Nat) : (Nat.toDigits 16 n).foldl appendDigit 0 = n := by
  induction n using Nat.strongRecOn with
  | ind n induction =>
      rw [Nat.toDigits_eq_if (by decide)]
      split
      · next small =>
          rw [List.foldl_cons, List.foldl_nil, appendDigit, hexValue_digitChar n small]
          exact Nat.zero_add n
      · next large =>
          have fewer : n / 16 < n := Nat.div_lt_self (by omega) (by decide)
          have last : n % 16 < 16 := Nat.mod_lt n (by decide)
          rw [List.foldl_append, induction _ fewer, List.foldl_cons, List.foldl_nil, appendDigit,
            hexValue_digitChar _ last]
          exact Nat.div_add_mod n 16

/-- Every hexadecimal digit of a number is that of a value below 16. -/
theorem exists_digitChar_of_mem {n : Nat} {c : Char} (member : c ∈ Nat.toDigits 16 n) :
    ∃ d < 16, c = Nat.digitChar d := by
  induction n using Nat.strongRecOn with
  | ind n induction =>
      rw [Nat.toDigits_eq_if (by decide)] at member
      split at member
      · next small => exact ⟨n, small, List.mem_singleton.mp member⟩
      · next large =>
          rcases List.mem_append.mp member with earlier | last
          · exact induction _ (Nat.div_lt_self (by omega) (by decide)) earlier
          · exact ⟨n % 16, Nat.mod_lt n (by decide), List.mem_singleton.mp last⟩

/-- No digit of a code point could be taken for its end, or for that of a field. -/
theorem plain_of_mem_codePoint {c digit : Char} (member : digit ∈ codePoint c) :
    digit ≠ '}' ∧ isControl digit = false := by
  have plain : ∀ d < 16, Nat.digitChar d ≠ '}' ∧ isControl (Nat.digitChar d) = false := by decide
  obtain ⟨d, small, rfl⟩ := exists_digitChar_of_mem member
  exact plain d small

/-- A code point is read up to the brace behind its digits. -/
theorem unescapeCode_append {digits : List Char} (inside : '}' ∉ digits) (value : Nat)
    (rest : List Char) :
    unescapeCode value (digits ++ '}' :: rest) =
      Char.ofNat (digits.foldl appendDigit value) :: unescape rest := by
  induction digits generalizing value with
  | nil => rfl
  | cons digit digits induction =>
      obtain ⟨first, others⟩ := List.ne_and_not_mem_of_not_mem_cons inside
      rw [List.cons_append, unescapeCode, induction others, List.foldl_cons]
      exact fun same => first same.symm

/-- Any character but a backslash stands for itself. -/
theorem unescape_cons {c : Char} (plain : c ≠ '\\') (rest : List Char) :
    unescape (c :: rest) = c :: unescape rest := by
  rw [unescape]
  · exact fun _ same => absurd same plain
  · exact fun _ _ same => absurd same plain

variable {hidden : Char → Bool}

/-- The way a character is written is read as this character, whether it is hidden or not. -/
theorem unescape_escape_append (c : Char) (rest : List Char) :
    unescape (escape hidden c ++ rest) = c :: unescape rest := by
  unfold escape
  split_ifs with quote backslash tab feed return' null coded
  · rw [quote]
    rfl
  · rw [backslash]
    rfl
  · rw [tab]
    rfl
  · rw [feed]
    rfl
  · rw [return']
    rfl
  · rw [null]
    rfl
  · have inside : '}' ∉ codePoint c := fun member => (plain_of_mem_codePoint member).1 rfl
    have shown : ['\\', 'u', '{'] ++ codePoint c ++ ['}'] ++ rest =
        '\\' :: 'u' :: '{' :: (codePoint c ++ '}' :: rest) := by simp
    rw [shown, unescape, unescapeCode_append inside, codePoint, foldl_appendDigit_toDigits,
      Char.ofNat_toNat]
  · exact unescape_cons backslash rest

/-- Characters that are written one behind the other are read as they are. -/
theorem unescape_flatMap_escape (text : List Char) :
    unescape (text.flatMap (escape hidden)) = text := by
  induction text with
  | nil => rfl
  | cons c text induction => rw [List.flatMap_cons, unescape_escape_append, induction]

/-- Quoted text is read as the text it was written for. -/
theorem decode_encode (text : String) : decode (encode hidden text) = text := by
  rw [decode, encode, String.toList_ofList, List.cons_append, List.tail_cons, List.dropLast_concat,
    unescape_flatMap_escape, String.ofList_toList]

/-- A character behind a backslash is written as such. -/
theorem isControl_of_mem_pair {c written : Char} (plain : isControl c = false)
    (member : written ∈ ['\\', c]) : isControl written = false := by
  rcases List.mem_cons.mp member with rfl | second
  · decide
  · rwa [List.mem_singleton.mp second]

/-- No control character is written as such. -/
theorem isControl_of_mem_escape {c written : Char} (member : written ∈ escape hidden c) :
    isControl written = false := by
  unfold escape at member
  split_ifs at member with quote backslash tab feed return' null coded
  · exact isControl_of_mem_pair (by decide) member
  · exact isControl_of_mem_pair (by decide) member
  · exact isControl_of_mem_pair (by decide) member
  · exact isControl_of_mem_pair (by decide) member
  · exact isControl_of_mem_pair (by decide) member
  · exact isControl_of_mem_pair (by decide) member
  · rcases List.mem_append.mp member with opened | closing
    · rcases List.mem_append.mp opened with opening | digit
      · simp only [List.mem_cons, List.not_mem_nil, or_false] at opening
        rcases opening with rfl | rfl | rfl <;> decide
      · exact (plain_of_mem_codePoint digit).2
    · rw [List.mem_singleton.mp closing]
      decide
  · rw [Bool.or_eq_true, not_or] at coded
    rw [List.mem_singleton.mp member]
    exact Bool.eq_false_iff.mpr coded.1

/-- Quoted text holds no control character. -/
theorem isControl_of_mem_encode {text : String} {c : Char}
    (member : c ∈ (encode hidden text).toList) : isControl c = false := by
  simp only [encode, String.toList_ofList, List.cons_append, List.mem_cons, List.mem_append,
    List.mem_flatMap, List.not_mem_nil, or_false] at member
  rcases member with rfl | ⟨_, _, written⟩ | rfl
  · decide
  · exact isControl_of_mem_escape written
  · decide

end Quoted

/-! ## The line of a token -/

/-- What the line of a token tells. -/
structure Entry where
  kind : String
  cargo : String
  line : Nat
  column : Nat
  raw : Option String
deriving Repr, DecidableEq

namespace Entry

/-- Reads a place: two numerals and a colon between them. -/
def place? (shown : List Char) : Option (Nat × Nat) :=
  match shown.splitOn ':' with
  | [line, column] => some (Nat.ofDigitChars 10 line 0, Nat.ofDigitChars 10 column 0)
  | _ => none

/-- Reads the fields of a line: a kind, quoted cargo, a place and, if it is there, a quoted source
text. -/
def ofFields? : List (List Char) → Option Entry
  | kind :: cargo :: place :: raw =>
      (place? place).map fun (line, column) =>
        ⟨String.ofList kind, Quoted.decode (String.ofList cargo), line, column,
          raw.head?.map fun shown => Quoted.decode (String.ofList shown)⟩
  | _ => none

/-- Reads a line with fields between tabulators. -/
def ofLine? (line : String) : Option Entry := ofFields? (line.toList.splitOn '\t')

end Entry

/-- A token without its place in bytes, which its line does not show. -/
def Token.entry (token : Token) : Entry :=
  ⟨token.content.kindName, token.content.cargo, token.position.line, token.position.column,
    token.raw⟩

variable {hidden : Char → Bool}

/-- What a token's line shows between its tabulators. -/
def Token.fields (hidden : Char → Bool) (token : Token) : List (List Char) :=
  [token.content.kindName.toList, (Quoted.encode hidden token.content.cargo).toList,
    token.position.text.toList] ++
      (token.raw.map fun raw => (Quoted.encode hidden raw).toList).toList

/-- A token's line without the line feed. -/
def Token.line (hidden : Char → Bool) (token : Token) : String :=
  String.ofList (['\t'].intercalate (token.fields hidden))

/-- A token's line is its fields with tabulators between them. -/
theorem CommandLine.tokenLine_eq (token : Token) :
    tokenLine hidden token = token.line hidden ++ "\n" := by
  cases raw : token.raw <;>
    simp [tokenLine, Token.line, Token.fields, raw, List.intercalate, ← String.toList_inj]

/-- A place is shown as two numerals with a colon between them. -/
theorem Position.toList_text (position : Position) :
    position.text.toList =
      [':'].intercalate [Decimal.digits position.line, Decimal.digits position.column] := by
  simp [text, Decimal.ofNat, List.intercalate]

/-- A place is read as it is shown. -/
theorem Entry.place?_text (position : Position) :
    place? position.text.toList = some (position.line, position.column) := by
  have digits : ∀ shown ∈ [Decimal.digits position.line, Decimal.digits position.column],
      ':' ∉ shown := by
    intro shown member colon
    rcases List.mem_pair.mp member with rfl | rfl
    · cases Decimal.isDigit_of_mem_digits colon
    · cases Decimal.isDigit_of_mem_digits colon
  rw [place?, position.toList_text, List.splitOn_intercalate ':' digits (List.cons_ne_nil _ _)]
  simp only [Decimal.digits, Nat.ofDigitChars_ten_toDigits]

/-! ## Telling fields and lines apart -/

/-- No digit is a control character. -/
theorem Quoted.isControl_of_isDigit {c : Char} (digit : c.isDigit = true) :
    isControl c = false := by
  obtain ⟨least, most⟩ : 48 ≤ c.toNat ∧ c.toNat ≤ 57 := by
    simpa [Char.isDigit, UInt32.le_iff_toNat_le] using digit
  rw [isControl, Bool.or_eq_false_iff, Bool.and_eq_false_iff]
  exact ⟨decide_eq_false (by omega), .inl (decide_eq_false (by omega))⟩

/-- No name of a kind holds a control character. -/
theorem Content.isControl_of_mem_kindName {content : Content} {c : Char}
    (member : c ∈ content.kindName.toList) : Quoted.isControl c = false := by
  have plain : content.kindName.toList.all (!Quoted.isControl ·) = true := by
    cases content with
    | lexeme value => cases value <;> simp only [kindName, Lexeme.kindName] <;> decide
    | space run | ending =>
        simp only [kindName]
        decide
  simpa using List.all_eq_true.mp plain c member

/-- No place is shown with a control character. -/
theorem Position.isControl_of_mem_text {position : Position} {c : Char}
    (member : c ∈ position.text.toList) : Quoted.isControl c = false := by
  simp only [text, Decimal.ofNat, String.toList_append, String.toList_ofList, List.mem_append]
    at member
  rcases member with (digit | colon) | digit
  · exact Quoted.isControl_of_isDigit (Decimal.isDigit_of_mem_digits digit)
  · obtain rfl : c = ':' := by simpa using colon
    decide
  · exact Quoted.isControl_of_isDigit (Decimal.isDigit_of_mem_digits digit)

/-- No field of a token's line holds a control character. -/
theorem Token.isControl_of_mem_fields {token : Token} {field : List Char}
    (shown : field ∈ token.fields hidden) {c : Char} (member : c ∈ field) :
    Quoted.isControl c = false := by
  rcases List.mem_append.mp shown with always | recorded
  · simp only [List.mem_cons, List.not_mem_nil, or_false] at always
    rcases always with rfl | rfl | rfl
    · exact Content.isControl_of_mem_kindName member
    · exact Quoted.isControl_of_mem_encode member
    · exact Position.isControl_of_mem_text member
  · obtain ⟨raw, _, rfl⟩ := Option.map_eq_some_iff.mp (Option.mem_toList.mp recorded)
    exact Quoted.isControl_of_mem_encode member

/-- The only control characters in a token's line are its tabulators. -/
theorem Token.eq_tab_of_mem_line {token : Token} {c : Char}
    (member : c ∈ (token.line hidden).toList) (control : Quoted.isControl c = true) :
    c = '\t' := by
  have shown : ∀ c ∈ ['\t'].intercalate (token.fields hidden),
      Quoted.isControl c = true → c = '\t' := by
    rw [forall_mem_intercalate (by simp)]
    intro field shown c inside control
    rw [isControl_of_mem_fields shown inside] at control
    cases control
  rw [line, String.toList_ofList] at member
  exact shown c member control

/-- The line of a token is one line. -/
theorem Token.isLine_line (token : Token) : IsLine (token.line hidden).toList := by
  constructor
  · intro feed
    exact absurd (eq_tab_of_mem_line feed (by decide)) (by decide)
  · intro last
    have carriage : '\r' ∈ (token.line hidden).toList := List.mem_of_mem_getLast? last
    exact absurd (eq_tab_of_mem_line carriage (by decide)) (by decide)

/-- The line of a token is read as all that it was written for. -/
theorem Entry.ofLine?_line (token : Token) :
    ofLine? (token.line hidden) = some token.entry := by
  have closed : ∀ field ∈ token.fields hidden, '\t' ∉ field := by
    intro field shown tab
    cases Token.isControl_of_mem_fields shown tab
  have cut : (token.line hidden).toList.splitOn '\t' = token.fields hidden := by
    rw [Token.line, String.toList_ofList]
    exact List.splitOn_intercalate '\t' closed (List.cons_ne_nil _ _)
  have raw : (token.raw.map fun raw => (Quoted.encode hidden raw).toList).toList.head?.map
      (fun shown => Quoted.decode (String.ofList shown)) = token.raw := by
    cases token.raw with
    | none => rfl
    | some raw => simp [Quoted.decode_encode]
  rw [ofLine?, cut]
  simp only [Token.fields, List.cons_append, List.nil_append, ofFields?, place?_text,
    Option.map_some, raw, String.ofList_toList, Quoted.decode_encode, Token.entry]

/-! ## Whole listings -/

namespace CommandLine

/-- A run that succeeds on an expression and prints the tokens with their source text. -/
def IsMappedListing (hidden : Char → Bool) (expression listing : String) : Prop :=
  ∃ arguments stdin run, Request.ofArguments arguments = .run (.tokens true) [expression] ∧
    ran? arguments stdin hidden = some run ∧ run.code = 0 ∧ run.stdout = listing

/-- An expression is listed exactly if it can be cut into tokens, each of which has its line. -/
theorem isMappedListing_iff {expression listing : String} :
    IsMappedListing hidden expression listing ↔
      ∃ tokens, tokenize expression true = .ok tokens ∧
        listing = String.join (tokens.map (tokenLine hidden)) := by
  constructor
  · rintro ⟨arguments, stdin, run, asked, ran, succeeded, rfl⟩
    obtain rfl : (Action.tokens true).perform expression hidden = run := by
      rw [ran?, asked] at ran
      rw [← Action.outcome_singleton _ _ stdin]
      exact Option.some.inj ran
    cases taken : tokenize expression true with
    | error error => simp [Action.perform, taken, Outcome.failed] at succeeded
    | ok tokens =>
        refine ⟨tokens, rfl, ?_⟩
        simp only [Action.perform, taken, Outcome.printed]
  · rintro ⟨tokens, taken, rfl⟩
    refine ⟨["tokens", "--source-map", "--", expression], .empty, _, rfl,
      (Action.tokens true).ran?_arguments_separator [expression] _ _, ?_⟩
    simp [Action.outcome_singleton, Action.perform, taken, Outcome.printed]

/-- A listing is the lines of its tokens, each with its end. -/
theorem join_tokenLine (tokens : List Token) :
    String.join (tokens.map (tokenLine hidden)) =
      String.join ((tokens.map (Token.line hidden)).map (· ++ "\n")) := by
  rw [List.map_map]
  exact congrArg String.join (List.map_congr_left fun token _ => tokenLine_eq token)

/-- The lines of a listing are those of its tokens. -/
theorem ofText_join_tokenLine (tokens : List Token) :
    Lines.ofText (String.join (tokens.map (tokenLine hidden))) =
      tokens.map (Token.line hidden) := by
  rw [join_tokenLine]
  refine Lines.ofText_join fun line member => ?_
  obtain ⟨token, _, rfl⟩ := List.mem_map.mp member
  exact token.isLine_line

/-- The source texts that a listing shows, one behind the other. -/
def shownSource (listing : String) : String :=
  String.join ((Lines.ofText listing).filterMap fun line => (Entry.ofLine? line).bind Entry.raw)

/-- The source texts of tokens one behind the other are the text that they account for. -/
theorem toList_join_raw (tokens : List Token) :
    (String.join (tokens.filterMap Token.raw)).toList = rawText tokens := by
  induction tokens with
  | nil => rfl
  | cons token tokens induction =>
      cases recorded : token.raw with
      | none => simpa [rawText, Token.rawText, recorded] using induction
      | some raw => simpa [rawText, Token.rawText, recorded] using induction

/-- A listing shows the source text that its tokens account for, and that is all of it. -/
theorem shownSource_of_tokenize {expression : String} {tokens : List Token}
    (taken : tokenize expression true = .ok tokens) :
    shownSource (String.join (tokens.map (tokenLine hidden))) = expression := by
  rw [shownSource, ofText_join_tokenLine, List.filterMap_map]
  simp only [Function.comp_def, Entry.ofLine?_line, Option.bind_some, Token.entry]
  rw [← String.toList_inj, toList_join_raw, rawText_of_tokenize taken]

/-- A listing with source texts tells its source. Let tokens of an expression have been listed,
whichever characters are hidden. The listing has one line for each of them and every line has its
end; read on its own, each line gives the kind, the cargo, the line, the column and the source text
of its token. The source texts one behind the other are the expression. Hence no other expression
has the same listing. -/
theorem mapped_listing_tells_source {hidden : Char → Bool} {expression listing : String}
    (listed : IsMappedListing hidden expression listing) :
    (∃ tokens, tokenize expression true = .ok tokens ∧
      listing = String.join ((Lines.ofText listing).map (· ++ "\n")) ∧
      (Lines.ofText listing).map Entry.ofLine? = tokens.map (some ·.entry)) ∧
    shownSource listing = expression ∧
    ∀ other, IsMappedListing hidden other listing → other = expression := by
  obtain ⟨tokens, taken, rfl⟩ := isMappedListing_iff.mp listed
  refine ⟨⟨tokens, taken, ?_, ?_⟩, shownSource_of_tokenize taken, ?_⟩
  · rw [ofText_join_tokenLine]
    exact join_tokenLine tokens
  · rw [ofText_join_tokenLine, List.map_map]
    exact List.map_congr_left fun token _ => Entry.ofLine?_line token
  · rintro other same
    obtain ⟨others, read, shown⟩ := isMappedListing_iff.mp same
    rw [← shownSource_of_tokenize taken, shown, shownSource_of_tokenize read]

/-- A literal holds a tabulator, both quotes, a backslash, a line feed, a letter that is not ASCII,
a control character, and three hidden characters: a no-break space, an accent and a space without
width. -/
theorem mapped_listing_tells_source_of_literal :
    let expression := "'''\t\"\\'\né\x01\u00a0\u0301\u200b''':  1"
    let inside := "\\t\\\"\\\\'\\né\\u\x7b1\x7d\\u\x7ba0\x7d\\u\x7b301\x7d\\u\x7b200b\x7d"
    let listing := "Literal\t\"" ++ inside ++ "\"\t0:0\t\"'''" ++ inside ++ "'''\"\n" ++
      ":\t\":\"\t1:8\t\":\"\nSpace\t\"  \"\t1:9\t\"  \"\n" ++
      "Number\t\"1\"\t1:11\t\"1\"\nEOL\t\"\"\t1:12\t\"\"\n"
    IsMappedListing Quoted.isHidden expression listing ∧ shownSource listing = expression ∧
      ∀ other, IsMappedListing Quoted.isHidden other listing → other = expression := by
  intro expression inside listing
  have taken : tokenize expression true = .ok
      [⟨.lexeme (.literal "\t\"\\'\né\x01\u00a0\u0301\u200b"), ⟨0, 0, 0⟩,
          some "'''\t\"\\'\né\x01\u00a0\u0301\u200b'''"⟩,
        ⟨.lexeme .colon, ⟨21, 1, 8⟩, some ":"⟩, ⟨.space "  ", ⟨22, 1, 9⟩, some "  "⟩,
        ⟨.lexeme (.number "1"), ⟨24, 1, 11⟩, some "1"⟩, ⟨.ending, ⟨25, 1, 12⟩, some ""⟩] := by
    decide +kernel
  have listed : IsMappedListing Quoted.isHidden expression listing :=
    isMappedListing_iff.mpr ⟨_, taken, by decide +kernel⟩
  obtain ⟨_, source, unique⟩ := mapped_listing_tells_source listed
  exact ⟨listed, source, unique⟩

end CommandLine
end EdgeExpression
