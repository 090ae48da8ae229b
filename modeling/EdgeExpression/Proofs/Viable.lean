import EdgeExpression.Proofs.Completion
import EdgeExpression.Proofs.Faults

/-!
# The first misfit is blamed

When a lexeme is refused, or the text ends too early, everything in front of that place can
still be the beginning of an expression, and nothing that begins with the same lexemes, the
refused one or the end included, is an expression.

The first half takes a text up to the place that is blamed, and writes a completion of the
reading behind it, with a blank in between. Then the lexemes in front stay as they are,
since a scan looks at one character beyond a lexeme only, and no lexeme goes on with a blank.
The second half holds since a reading is decided by its lexemes alone.
-/
namespace EdgeExpression

/-! ## Cutting a text -/

namespace Cursor

variable {cursor behind : Cursor}

/-- A cut through the text of a reading, behind some of its lexemes. Behind the cut the
reading goes on as before; and what was read in front of it stays the same if the text
behind it is exchanged for one that begins alike, or with a blank, or is empty. -/
structure Cut (cursor : Cursor) (front : List (Lexeme × Position)) (passed : List Char)
    (behind : Cursor) : Prop where
  text : cursor.rest = passed ++ behind.rest
  position : behind.position = cursor.position.past passed
  reading : cursor.reading = ⟨front ++ behind.reading.lexemes, behind.reading.outcome⟩
  exchange : ∀ other : List Char,
    (∀ c ∈ other.head?, c ∈ behind.rest.head? ∨ isBlank c = true) →
    (⟨cursor.position, passed ++ other⟩ : Cursor).reading =
      ⟨front ++ (⟨behind.position, other⟩ : Cursor).reading.lexemes,
        (⟨behind.position, other⟩ : Cursor).reading.outcome⟩

/-- A cut behind one more lexeme in front. -/
theorem Cut.cons {next : Cursor} {value : Lexeme} {start : Position} {blanks own passed : List Char}
    {front : List (Lexeme × Position)} (cut : next.Cut front passed behind)
    (passes : cursor.Passes blanks own next) (begins : start = cursor.position.past blanks)
    (found : scan (own ++ next.rest) = .found value own) :
    cursor.Cut ((value, start) :: front) (blanks ++ own ++ passed) behind where
  text := by rw [passes.text, cut.text]; simp
  position := by rw [cut.position, passes.position]; simp [Position.past_append]
  reading := by
    have seen := look_eq_lexeme_iff.mpr ⟨blanks, own, passes, begins, found⟩
    rw [reading_of_lexeme seen, cut.reading]
    rfl
  exchange := by
    intro other alike
    have sameHead : ∀ c ∈ (passed ++ other).head?, c ∈ next.rest.head? ∨ isBlank c = true := by
      rw [cut.text]
      cases passed with
      | nil => exact alike
      | cons d passed => exact fun c head => .inl head
    have exchanged := scan_found_exchange found sameHead
    have passes' : (⟨cursor.position, blanks ++ own ++ passed ++ other⟩ : Cursor).Passes blanks own
        ⟨next.position, passed ++ other⟩ := ⟨by simp, passes.blank, passes.position⟩
    have seen := look_eq_lexeme_iff.mpr ⟨blanks, own, passes', begins, exchanged⟩
    rw [reading_of_lexeme seen, cut.exchange other alike]
    rfl

/-- A reading may be cut behind any of its lexemes. -/
theorem exists_cut {front back : List (Lexeme × Position)}
    (split : cursor.reading.lexemes = front ++ back) :
    ∃ passed behind, cursor.Cut front passed behind ∧ behind.reading.lexemes = back := by
  induction front generalizing cursor with
  | nil => exact ⟨[], cursor, ⟨rfl, rfl, rfl, fun _ _ => rfl⟩, split⟩
  | cons entry front induction =>
      rw [reading] at split
      split at split
      · next value start next seen =>
          obtain ⟨rfl, rest⟩ := List.cons.inj split
          obtain ⟨blanks, own, passes, begins, found⟩ := look_eq_lexeme_iff.mp seen
          obtain ⟨passed, behind, cut, left⟩ := induction rest
          exact ⟨_, behind, cut.cons passes begins found, left⟩
      · cases split
      · cases split

/-- A text that goes on differently behind a cut reads as the same in front of it. -/
theorem Cut.reading_ofText {source text : String} {front : List (Lexeme × Position)}
    {passed other : List Char} (cut : (ofList source.toList).Cut front passed behind)
    (alike : ∀ c ∈ other.head?, c ∈ behind.rest.head? ∨ isBlank c = true)
    (written : text.toList = passed ++ other) :
    Reading.ofText text = ⟨front ++ (⟨behind.position, other⟩ : Cursor).reading.lexemes,
      (⟨behind.position, other⟩ : Cursor).reading.outcome⟩ := by
  rw [Reading.ofText, written]
  exact cut.exchange other alike

end Cursor

/-! ## Tokens up to the first fault -/

/-- The tokens that a stream hands out, without the error that may be the last. -/
def TokenStream.tokens (stream : TokenStream) : List Token :=
  stream.remaining.filterMap Except.toOption

/-- What the tokens of a reading stand for and where they begin: those of its lexemes, and
that of the end if no fault lies in front of it. -/
def Reading.shown (reading : Reading) : List (Content × Position) :=
  match reading.outcome with
  | .ok ending => reading.contents ending
  | .error _ => reading.lexemes.map fun entry => (.lexeme entry.1, entry.2)

/-- What a reading shows of lexemes behind each other is what it shows of either side. -/
theorem Reading.shown_append (front back : List (Lexeme × Position))
    (outcome : Except LexError Position) :
    (Reading.mk (front ++ back) outcome).shown =
      front.map (fun entry => (.lexeme entry.1, entry.2)) ++ (Reading.mk back outcome).shown := by
  cases outcome <;> simp [Reading.shown, Reading.contents]

/-- What a stream that has not ended hands out is shown by its reading. Proof: by induction
on the handing out. -/
theorem TokenStream.shown_tokens (stream : TokenStream) (running : stream.ended = false) :
    (significant stream.tokens).map (fun token => (token.content, token.position)) =
      stream.cursor.reading.shown := by
  unfold tokens
  fun_induction remaining stream with
  | case1 stream after handed => simp [next, running] at handed
  | case2 stream result after handed induction =>
      obtain ⟨_, behind, pulled, rfl⟩ := pull_of_next handed
      rw [reading_pull pulled]
      rcases result with error | ⟨value | run | _, position, raw⟩
      · rw [remaining_of_ended _ (by simp [isFinal])]
        rfl
      · have first := Reading.shown_append [(value, position)]
          behind.cursor.reading.lexemes behind.cursor.reading.outcome
        have others := congrArg (List.cons (Content.lexeme value, position)) (induction rfl)
        exact others.trans first.symm
      · exact induction rfl
      · rw [remaining_of_ended _ (by simp [isFinal])]
        rfl

/-- The tokens of a text other than those of blanks stand for what its reading shows. -/
theorem contents_tokens (source : String) :
    (significant (TokenStream.ofText source false).tokens).map Token.content =
      (Reading.ofText source).shown.map Prod.fst := by
  have shown := (TokenStream.ofText source false).shown_tokens rfl
  have firsts := congrArg (List.map Prod.fst) shown
  rw [List.map_map] at firsts
  exact firsts

/-- Whatever a reading shows behind some lexemes is a token of the text, behind those of
the lexemes. -/
theorem exists_token_of_shown {source : String} {front : List (Lexeme × Position)}
    {content : Content} {position : Position} {later : List (Content × Position)}
    (shown : (Reading.ofText source).shown =
      front.map (fun entry => (.lexeme entry.1, entry.2)) ++ (content, position) :: later) :
    ∃ tokens token more,
      significant (TokenStream.ofText source false).tokens = tokens ++ token :: more ∧
      token.position = position ∧
      (tokens ++ [token]).map Token.content = (front.map Prod.fst).map .lexeme ++ [content] := by
  have whole := ((TokenStream.ofText source false).shown_tokens rfl).trans shown
  obtain ⟨tokens, behind, found, before, next⟩ := List.map_eq_append_iff.mp whole
  obtain ⟨token, more, rfl, same, _⟩ := List.map_eq_cons_iff.mp next
  obtain ⟨rfl, place⟩ := Prod.mk.inj same
  refine ⟨tokens, token, more, found, place, ?_⟩
  have firsts := congrArg (List.map Prod.fst) before
  rw [List.map_append, List.map_singleton]
  simpa [Function.comp_def] using firsts

/-- Behind a cursor there are blanks only up to the first thing that is shown. -/
theorem Cursor.exists_blanks {cursor : Cursor} {content : Content} {position : Position}
    {more : List (Content × Position)}
    (shown : cursor.reading.shown = (content, position) :: more) :
    ∃ blanks rest, cursor.rest = blanks ++ rest ∧ (∀ c ∈ blanks, isBlank c = true) ∧
      position = cursor.position.past blanks := by
  cases seen : cursor.look with
  | lexeme value start behind =>
      obtain ⟨blanks, own, passes, begins, _⟩ := look_eq_lexeme_iff.mp seen
      have first := Reading.shown_append [(value, start)] behind.reading.lexemes
        behind.reading.outcome
      rw [reading_of_lexeme seen] at shown
      obtain ⟨same, _⟩ := List.cons.inj (shown.symm.trans first)
      obtain ⟨_, rfl⟩ := Prod.mk.inj same
      exact ⟨blanks, own ++ behind.rest, passes.text, passes.blank, begins⟩
  | ending behind =>
      obtain ⟨blanks, passes, _⟩ := of_look_eq_ending seen
      rw [reading_of_ending seen] at shown
      obtain ⟨same, _⟩ := List.cons.inj shown
      obtain ⟨_, rfl⟩ := Prod.mk.inj same
      exact ⟨blanks, behind.rest, passes.text, passes.blank, passes.position⟩
  | fault stopped =>
      rw [reading_of_fault seen] at shown
      cases shown

/-! ## The kind of a token and what it carries -/

/-- Different lexemes are different contents. -/
theorem Content.lexeme_injective : Function.Injective Content.lexeme :=
  fun _ _ same => Content.lexeme.inj same

/-- The kind of a token and what it carries. -/
def Content.label (content : Content) : String × String := (content.kindName, content.cargo)

/-- Different comparisons have different symbols. -/
theorem Comparison.symbol_injective : Function.Injective Comparison.symbol := by
  intro first second same
  have read := Comparison.ofSymbol?_symbol first
  rw [same, Comparison.ofSymbol?_symbol] at read
  exact (Option.some.inj read).symm

/-- Different connectives have different symbols. -/
theorem Connective.symbol_injective : Function.Injective Connective.symbol := by
  intro first second same
  have read := Connective.ofSymbol?_symbol first
  rw [same, Connective.ofSymbol?_symbol] at read
  exact (Option.some.inj read).symm

/-- Lexemes are told apart by their kinds and by what they carry. -/
theorem Lexeme.eq_of_label {first second : Lexeme} (kind : first.kindName = second.kindName)
    (cargo : first.cargo = second.cargo) : first = second := by
  cases first <;> cases second <;>
    simp_all [Lexeme.kindName, Lexeme.cargo, Comparison.symbol_injective.eq_iff,
      Connective.symbol_injective.eq_iff]

/-- No lexeme is named like a space. -/
theorem Lexeme.kindName_ne_space (lexeme : Lexeme) : lexeme.kindName ≠ "Space" := by
  cases lexeme <;> simp [Lexeme.kindName]

/-- No lexeme is named like the end. -/
theorem Lexeme.kindName_ne_ending (lexeme : Lexeme) : lexeme.kindName ≠ "EOL" := by
  cases lexeme <;> simp [Lexeme.kindName]

/-- Tokens stand for the same if they have the same kind and carry the same. -/
theorem Content.label_injective : Function.Injective Content.label := by
  intro first second same
  obtain ⟨kind, cargo⟩ := Prod.mk.inj same
  cases first with
  | lexeme value =>
      cases second with
      | lexeme other => exact congrArg Content.lexeme (Lexeme.eq_of_label kind cargo)
      | space => exact absurd kind value.kindName_ne_space
      | ending => exact absurd kind value.kindName_ne_ending
  | space run =>
      cases second with
      | lexeme other => exact absurd kind.symm other.kindName_ne_space
      | space other => exact congrArg Content.space cargo
      | ending => simp [kindName] at kind
  | ending =>
      cases second with
      | lexeme other => exact absurd kind.symm other.kindName_ne_ending
      | space => simp [kindName] at kind
      | ending => rfl

/-- Where the kinds and cargos of some contents begin those of others, the contents do. -/
theorem prefix_of_map_label {first second : List Content}
    (begins : first.map Content.label <+: second.map Content.label) : first <+: second := by
  obtain ⟨same, inside, equal⟩ := List.prefix_map_iff.mp begins
  rwa [Content.label_injective.list_map equal]

/-! ## The misfit -/

/-- A reading cannot go on with what a token stands for. -/
def Progress.Rejects (limit : Nat) (progress : Progress) : Content → Prop
  | .lexeme value => progress.step limit value = .refused
  | .space _ => False
  | .ending => progress.finish = none

/-- What the parser itself blames is the first thing that its reading rejects, and stands
where the error is. -/
theorem exists_misfit {source : String} {failure : ParseError}
    (failed : Expr.parse source = .error failure)
    (own : (∃ c, failure.cause = .unexpectedChar c) ∨ failure.cause = .unexpectedEnd) :
    ∃ front back content more reached, (Reading.ofText source).lexemes = front ++ back ∧
      (Reading.mk back (Reading.ofText source).outcome).shown =
        (content, failure.position) :: more ∧
      (Progress.operand []).feed maxDepth (front.map Prod.fst) = some reached ∧
      reached.Rejects maxDepth content := by
  cases fails_of_parse failed with
  | fault error faulty => simp [LexError.toParseError] at own
  | incomplete ending reached ends fed missing =>
      refine ⟨_, [], .ending, [], reached, (List.append_nil _).symm, ?_, fed, missing⟩
      simp [Reading.shown, ends, Reading.contents]
  | refused before behind value start reached split fed refused =>
      exact ⟨before, _, .lexeme value, _, reached, split,
        Reading.shown_append [(value, start)] behind _, fed, refused⟩
  | outOfRange => simp at own

/-- The completion of a reading as text. It begins with a blank, so that it changes none of
the lexemes in front. -/
def Progress.written (progress : Progress) : List Char :=
  ' ' :: progress.completion.flatMap Lexeme.spaced

/-- What is written to complete a reading begins with a blank, also behind blanks. -/
theorem Progress.isBlank_of_head_written {progress : Progress} {blanks : List Char}
    (blank : ∀ c ∈ blanks, isBlank c = true) :
    ∀ c ∈ (blanks ++ progress.written).head?, isBlank c = true := by
  intro c head
  cases blanks with
  | nil =>
      obtain rfl : ' ' = c := Option.some.inj head
      rfl
  | cons first blanks => exact blank c (List.mem_of_head? head)

/-- If a reading takes its completion, the text of the completion consists of its lexemes,
behind any blanks. -/
theorem Progress.lists_written {progress following : Progress} {limit : Nat} {cursor : Cursor}
    {blanks : List Char} (fed : progress.feed limit progress.completion = some following)
    (blank : ∀ c ∈ blanks, isBlank c = true) (text : cursor.rest = blanks ++ progress.written) :
    cursor.reading.Lists progress.completion := by
  have split : cursor.rest = (blanks ++ [' ']) ++ progress.completion.flatMap Lexeme.spaced := by
    simp [text, Progress.written]
  have space : ∀ c ∈ blanks ++ [' '], isBlank c = true :=
    List.forall_mem_append.mpr ⟨blank, by simp [isBlank]⟩
  exact lists_spaced (legible_completion progress) (isChain_of_feed apart_of_steps fed) split space

/-- Behind lexemes that a reading has taken, and behind any blanks, a text can be completed
to an expression. -/
theorem exists_completion {source : String} {front : List (Lexeme × Position)}
    {passed blanks : List Char} {behind : Cursor} {reached : Progress}
    (cut : (Cursor.ofList source.toList).Cut front passed behind)
    (blank : ∀ c ∈ blanks, isBlank c = true)
    (fed : (Progress.operand []).feed maxDepth (front.map Prod.fst) = some reached) :
    ∃ completion e, Expr.parse (String.ofList (passed ++ blanks) ++ completion) = .ok e := by
  have begun : (Progress.operand []).Sound := trivial
  have sound : reached.Sound := Progress.sound_feed begun fed
  obtain ⟨e, completed⟩ : ∃ e, (reached.feed maxDepth reached.completion).bind Progress.finish =
      some e := Progress.exists_finish_completion sound
  obtain ⟨last, continued, _⟩ := Option.bind_eq_some_iff.mp completed
  have begins : ∀ c ∈ (blanks ++ reached.written).head?,
      c ∈ behind.rest.head? ∨ isBlank c = true :=
    fun c head => .inr (Progress.isBlank_of_head_written blank c head)
  obtain ⟨listed, ends⟩ : (Cursor.mk behind.position (blanks ++ reached.written)).reading.Lists
      reached.completion := Progress.lists_written continued blank rfl
  refine ⟨String.ofList reached.written, e, ?_⟩
  rw [parse_eq_follow, cut.reading_ofText begins (by simp), Progress.follow_eq_ok_iff]
  refine ⟨ends, ?_⟩
  rw [List.map_append, listed, Progress.feed_append, fed, Option.bind_some]
  exact completed

/-- No expression begins with what a reading has taken and what it then rejects. -/
theorem parse_ne_ok_of_rejects {front : List Lexeme} {content : Content} {reached : Progress}
    {other : String} (fed : (Progress.operand []).feed maxDepth front = some reached)
    (rejects : reached.Rejects maxDepth content)
    (begins : front.map .lexeme ++ [content] <+: (Reading.ofText other).shown.map Prod.fst)
    (e : Expr) : Expr.parse other ≠ .ok e := by
  intro parsed
  rw [parse_eq_follow, Progress.follow_eq_ok_iff] at parsed
  obtain ⟨⟨ending, ends⟩, recognized⟩ := parsed
  have shown : (Reading.ofText other).shown.map Prod.fst =
      ((Reading.ofText other).lexemes.map Prod.fst).map .lexeme ++ [.ending] := by
    simp [Reading.shown, ends, Reading.contents]
  rw [shown] at begins
  rcases List.prefix_concat_iff.mp begins with whole | ⟨rest, inside⟩
  · obtain ⟨same, last⟩ := List.append_inj' whole rfl
    obtain rfl : content = .ending := List.head_eq_of_cons_eq last
    have unfinished : reached.finish = none := rejects
    rw [← Content.lexeme_injective.list_map same, fed, Option.bind_some, unfinished] at recognized
    cases recognized
  · rw [List.append_assoc] at inside
    obtain ⟨first, second, split, same, later⟩ := List.map_eq_append_iff.mp inside.symm
    obtain ⟨value, more, rfl, rfl, _⟩ := List.map_eq_cons_iff.mp later
    have refused : reached.step maxDepth value = .refused := rejects
    rw [split, Content.lexeme_injective.list_map same, Progress.feed_append, fed,
      Option.bind_some, Progress.feed, refused] at recognized
    cases recognized

/-- The parser blames exactly the first token that cannot stand where it is. The text in
front of the place that is blamed can be completed to an expression; and no text is an
expression whose tokens, those of blanks left out, begin with the same kinds and cargos,
the blamed token included. -/
theorem parse_blames_first_misfit {source : String} {failure : ParseError}
    (failed : Expr.parse source = .error failure)
    (own : (∃ c, failure.cause = .unexpectedChar c) ∨ failure.cause = .unexpectedEnd) :
    (∃ before rest completion e, source.toList = before ++ rest ∧
      (String.ofList before).utf8ByteSize = failure.position.offset ∧
      Expr.parse (String.ofList before ++ completion) = .ok e) ∧
    ∃ tokens blamed more,
      significant (TokenStream.ofText source false).tokens = tokens ++ blamed :: more ∧
      blamed.position = failure.position ∧
      ∀ other : String, (tokens ++ [blamed]).map (·.content.label) <+:
          (significant (TokenStream.ofText other false).tokens).map (·.content.label) →
        ∀ e, Expr.parse other ≠ .ok e := by
  obtain ⟨front, back, content, later, reached, split, shown, fed, rejects⟩ :=
    exists_misfit failed own
  constructor
  · obtain ⟨passed, behind, cut, left⟩ := Cursor.exists_cut split
    have reading : behind.reading = ⟨back, (Reading.ofText source).outcome⟩ := by
      rw [Reading.ofText, cut.reading, ← left]
    obtain ⟨blanks, rest, text, blank, position⟩ := Cursor.exists_blanks (reading ▸ shown)
    obtain ⟨completion, e, completed⟩ := exists_completion cut blank fed
    refine ⟨passed ++ blanks, rest, completion, e, ?_, ?_, completed⟩
    · have whole : source.toList = passed ++ behind.rest := cut.text
      rw [whole, text, List.append_assoc]
    · have place : behind.position = Position.origin.past passed := cut.position
      rw [position, place, ← Position.past_append, Position.offset_origin_past]
  · have whole : (Reading.ofText source).shown =
        front.map (fun entry => (.lexeme entry.1, entry.2)) ++
          (content, failure.position) :: later := by
      rw [← shown, ← Reading.shown_append, ← split]
    obtain ⟨tokens, blamed, more, found, position, contents⟩ := exists_token_of_shown whole
    refine ⟨tokens, blamed, more, found, position, ?_⟩
    intro other begins
    refine parse_ne_ok_of_rejects fed rejects ?_
    rw [← contents, ← contents_tokens]
    apply prefix_of_map_label
    rw [List.map_map, List.map_map]
    exact begins

/-- A second operand is blamed; the text in front of it, with the blank, can be completed. -/
theorem parse_blames_second_operand :
    Expr.parse "1 2" = .error ⟨.unexpectedChar '2', ⟨2, 0, 2⟩⟩ ∧
      ∃ before rest completion e, "1 2".toList = before ++ rest ∧
        (String.ofList before).utf8ByteSize = 2 ∧
        Expr.parse (String.ofList before ++ completion) = .ok e := by
  have failed : Expr.parse "1 2" = .error ⟨.unexpectedChar '2', ⟨2, 0, 2⟩⟩ := by decide +kernel
  obtain ⟨viable, _⟩ := parse_blames_first_misfit failed (.inl ⟨'2', rfl⟩)
  exact ⟨failed, viable⟩

end EdgeExpression
