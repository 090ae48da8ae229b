import EdgeExpression.Proofs.Calls

/-!
# The recorded source is complete

A token that records the source text accounts for all text since the token before it. So as
long as no call fails, the recorded texts together are the text that was passed, and with
the end of the text they are all of it. A token's own text stands at its position, behind
the blanks that were skipped; a token of blanks is nothing else, and the end stands for no
text of its own.

Every token but the end accounts for some text. Hence there are no more of them than
characters, and taking all tokens comes to its end.
-/
namespace EdgeExpression

/-! ## What a token accounts for -/

/-- The recorded text of a token, if any. -/
def Token.rawText (token : Token) : List Char := (token.raw.getD "").toList

/-- The recorded texts of tokens, one behind the other. -/
def rawText (tokens : List Token) : List Char := tokens.flatMap Token.rawText

/-- What stands for a token: its own text, behind blanks that were skipped. -/
def Content.StandsFor (blanks own : List Char) : Content → Prop
  | .lexeme value => own ≠ [] ∧ value.Written own
  | .space run => own ≠ [] ∧ blanks = [] ∧ own = run.toList ∧ ∀ c ∈ own, isBlank c = true
  | .ending => own = []

/-- Behind the text before it, a token records blanks up to its position, and then its own
text. -/
def Token.Accounts (token : Token) (before : List Char) : Prop :=
  ∃ blanks own, token.raw = some (String.ofList (blanks ++ own)) ∧
    (∀ c ∈ blanks, isBlank c = true) ∧
    token.position = Position.origin.past (before ++ blanks) ∧
    token.content.StandsFor blanks own

/-- Only the end stands for no text of its own. -/
theorem Content.StandsFor.own_ne_nil {content : Content} {blanks own : List Char}
    (stands : content.StandsFor blanks own) (more : content ≠ .ending) : own ≠ [] := by
  cases content with
  | lexeme value => exact And.left (b := value.Written own) stands
  | space run => exact And.left (b := blanks = [] ∧ _) stands
  | ending => exact absurd rfl more

/-- Only the end of a text accounts for no character. -/
theorem Token.Accounts.rawText_ne_nil {token : Token} {before : List Char}
    (accounts : token.Accounts before) (more : token.content ≠ .ending) : token.rawText ≠ [] := by
  obtain ⟨blanks, own, raw, _, _, stands⟩ := accounts
  simp [rawText, raw, stands.own_ne_nil more]

/-! ## One token -/

namespace TokenStream

variable {stream after : TokenStream} {token : Token} {passed text : List Char}

/-- A token that is pulled stands for blanks and its own text behind them, and behind the
end nothing is left. -/
theorem pull_token (pulled : stream.pull = (.ok token, after)) :
    ∃ blanks own, stream.cursor.Passes blanks own after.cursor ∧
      token = stream.token token.content (stream.cursor.position.past blanks) after.cursor ∧
      token.content.StandsFor blanks own ∧
      (token.content = .ending → after.cursor.rest = []) := by
  rcases pull_cases stream with ⟨_, nonempty, space⟩ | ⟨_, behindBlanks⟩
  · obtain ⟨result, rfl⟩ := Prod.mk.inj (space.symm.trans pulled)
    obtain rfl := Except.ok.inj result
    refine ⟨[], _, stream.cursor.passes_skip.of_blanks, rfl, ⟨nonempty, rfl, ?_, ?_⟩, ?_⟩
    · exact String.toList_ofList.symm
    · exact stream.cursor.passes_skip.blank
    · intro ending
      cases ending
  · rw [behindBlanks, pullBehindBlanks] at pulled
    split at pulled
    · next value start behind seen =>
        obtain ⟨result, rfl⟩ := Prod.mk.inj pulled
        obtain rfl := Except.ok.inj result
        obtain ⟨blanks, own, passes, rfl, found⟩ := Cursor.look_eq_lexeme_iff.mp seen
        refine ⟨blanks, own, passes, rfl, ⟨scan_read_ne_nil found, scan_found_written found⟩, ?_⟩
        intro ending
        cases ending
    · next behind seen =>
        obtain ⟨result, rfl⟩ := Prod.mk.inj pulled
        obtain rfl := Except.ok.inj result
        obtain ⟨blanks, passes, finished⟩ := Cursor.of_look_eq_ending seen
        have place : behind.position = stream.cursor.position.past blanks := passes.position
        exact ⟨blanks, [], passes, by rw [← place]; rfl, rfl, fun _ => finished⟩
    · cases (Prod.mk.inj pulled).1

/-- One token more: it accounts for the text that is passed with it. -/
theorem accounts_of_pull (pulled : stream.pull = (.ok token, after))
    (mapped : stream.mapped = true) (before : stream.cursor.HasPassed passed text) :
    token.Accounts passed ∧ after.cursor.HasPassed (passed ++ token.rawText) text ∧
      (token.content = .ending → after.cursor.rest = []) := by
  obtain ⟨blanks, own, passes, shape, stands, finished⟩ := pull_token pulled
  have raw : token.raw = some (String.ofList (blanks ++ own)) := by
    rw [shape, TokenStream.token, passes.upTo_eq, mapped]
    rfl
  have position : token.position = Position.origin.past (passed ++ blanks) := by
    rw [shape, Position.past_append, ← before.2]
    rfl
  refine ⟨⟨blanks, own, raw, passes.blank, position, stands⟩, ?_, finished⟩
  rw [Token.rawText, raw, Option.getD_some, String.toList_ofList]
  exact passes.hasPassed before

/-! ## Any number of tokens -/

/-- Along calls that all hand out a token, each token accounts for its text. Proof: by
induction on the calls; the text that is passed grows by the recorded text of one token at
a time. -/
theorem accounts_of_answers {calls : List Call} {tokens : List Token}
    (answered : stream.answers calls = (tokens.map fun token => some (.ok token), after))
    (mapped : stream.mapped = true) (before : stream.cursor.HasPassed passed text) :
    after.cursor.HasPassed (passed ++ rawText tokens) text ∧
      (∀ earlier token later, tokens = earlier ++ token :: later →
        token.Accounts (passed ++ rawText earlier)) ∧
      ((∃ token ∈ tokens, token.content = .ending) → after.cursor.rest = []) := by
  induction calls generalizing stream passed tokens with
  | nil =>
      obtain ⟨none, rfl⟩ := Prod.mk.inj answered
      obtain rfl : tokens = [] := by simpa using none.symm
      exact ⟨by simpa [rawText] using before, by simp, by simp⟩
  | cons call calls induction =>
      obtain ⟨token, rest, behind, ended, rfl, pulled, others⟩ := pull_of_answers_cons answered
      obtain ⟨accounts, now, finished⟩ := accounts_of_pull pulled mapped before
      have recording : behind.mapped = true := (pull_passes pulled).2.2.1.trans mapped
      obtain ⟨passedAll, each, atEnd⟩ := induction others recording now
      have whole : passed ++ token.rawText ++ rawText rest = passed ++ rawText (token :: rest) := by
        simp [rawText]
      rw [whole] at passedAll
      refine ⟨passedAll, ?_, ?_⟩
      · intro earlier other later split
        cases earlier with
        | nil =>
            obtain ⟨rfl, _⟩ := List.cons.inj split
            simpa [rawText] using accounts
        | cons head earlier =>
            obtain ⟨rfl, inside⟩ := List.cons.inj split
            simpa [rawText] using each earlier other later inside
      · rintro ⟨other, member, ending⟩
        rcases List.mem_cons.mp member with rfl | later
        · have text := now.1.symm.trans passedAll.1
          rw [finished ending, ← whole, List.append_assoc _ (rawText rest)] at text
          have nothing : [] = rawText rest ++ after.cursor.rest := List.append_cancel_left text
          exact (List.append_eq_nil_iff.mp nothing.symm).2
        · exact atEnd ⟨other, later, ending⟩

/-! ## All tokens -/

/-- Only what is handed out last is the end or an error, and no more tokens come before it
than characters are left. -/
theorem exists_remaining (stream : TokenStream) (running : stream.ended = false) :
    ∃ (tokens : List Token) (last : Except LexError Token),
      stream.remaining = tokens.map .ok ++ [last] ∧ isFinal last = true ∧
      (∀ token ∈ tokens, token.content ≠ .ending) ∧
      tokens.length ≤ stream.cursor.rest.length := by
  fun_induction remaining stream with
  | case1 stream after handed => simp [next, running] at handed
  | case2 stream result after handed induction =>
      obtain ⟨_, behind, pulled, rfl⟩ := pull_of_next handed
      cases final : isFinal result with
      | true =>
          refine ⟨[], result, ?_, final, by simp, by simp⟩
          rw [remaining_of_ended _ rfl]
          rfl
      | false =>
          rw [final] at induction
          obtain ⟨tokens, last, rest, isLast, more, short⟩ := induction rfl
          have shorter := pull_rest_lt pulled final
          cases result with
          | error error => cases final
          | ok token =>
              have notEnding : token.content ≠ .ending := by simpa [isFinal] using final
              refine ⟨token :: tokens, last, by rw [rest]; rfl, isLast, ?_, ?_⟩
              · exact List.forall_mem_cons.mpr ⟨notEnding, more⟩
              · exact Nat.lt_of_le_of_lt short shorter

end TokenStream

/-- The tokens that calls on a text hand out account for the text they pass, and with the
end for all of it. -/
theorem accounts_ofText {source : String} {calls : List Call} {tokens : List Token}
    {after : TokenStream}
    (answered : (TokenStream.ofText source true).answers calls =
      (tokens.map fun token => some (.ok token), after)) :
    after.cursor.HasPassed (rawText tokens) source.toList ∧
      (∀ earlier token later, tokens = earlier ++ token :: later →
        token.Accounts (rawText earlier)) ∧
      ((∃ token ∈ tokens, token.content = .ending) → rawText tokens = source.toList) := by
  have start := Cursor.hasPassed_ofList source.toList
  obtain ⟨passed, each, finished⟩ := TokenStream.accounts_of_answers answered rfl start
  refine ⟨passed, each, fun ending => ?_⟩
  have text : source.toList = rawText tokens ++ after.cursor.rest := passed.1
  rw [text, finished ending, List.append_nil]

/-- If all results can be taken together, each of them is a token. -/
theorem eq_map_ok_of_mapM {results : List (Except LexError Token)} {tokens : List Token}
    (taken : results.mapM id = .ok tokens) : results = tokens.map .ok := by
  induction results generalizing tokens with
  | nil =>
      obtain rfl := Except.ok.inj taken
      rfl
  | cons result rest induction =>
      rw [List.mapM_cons] at taken
      cases result with
      | error error => cases taken
      | ok token =>
          cases others : rest.mapM id with
          | error error =>
              rw [others] at taken
              cases taken
          | ok more =>
              rw [others] at taken
              obtain rfl := Except.ok.inj taken
              rw [induction others]
              rfl

/-- Tokens can be taken together. -/
theorem mapM_map_ok (tokens : List Token) :
    (tokens.map Except.ok).mapM id = (.ok tokens : Except LexError (List Token)) := by
  rw [List.mapM_map]
  exact (List.mapM_pure (f := id)).trans (congrArg Except.ok (List.map_id tokens))

/-- All tokens of a text are no more than its characters, and the end, which is among
them. -/
theorem length_of_tokenize {source : String} {mapped : Bool} {tokens : List Token}
    (taken : tokenize source mapped = .ok tokens) :
    tokens.length ≤ source.length + 1 ∧ ∃ token ∈ tokens, token.content = .ending := by
  obtain ⟨before, last, remaining, final, _, short⟩ :=
    (TokenStream.ofText source mapped).exists_remaining rfl
  rw [eq_map_ok_of_mapM taken] at remaining
  obtain ⟨first, second, rfl, _, single⟩ := List.map_eq_append_iff.mp remaining
  obtain ⟨token, rfl, rfl⟩ := List.map_eq_singleton_iff.mp single
  have length : first.length = before.length := by
    simpa using congrArg List.length remaining
  have chars : before.length ≤ source.length := by
    rw [← String.length_toList]
    exact short
  refine ⟨?_, token, by simp, by simpa [TokenStream.isFinal] using final⟩
  rw [List.length_append, List.length_singleton, length]
  exact Nat.succ_le_succ chars

/-- All tokens of a text account for all of it. -/
theorem rawText_of_tokenize {source : String} {tokens : List Token}
    (taken : tokenize source true = .ok tokens) : rawText tokens = source.toList := by
  have answered := (TokenStream.ofText source true).answers_replicate_next
  rw [eq_map_ok_of_mapM taken, List.map_map] at answered
  obtain ⟨_, _, complete⟩ := accounts_ofText (Prod.ext answered rfl)
  exact complete (length_of_tokenize taken).2

/-- The recorded source is complete on every run, and recording it changes nothing else.
As long as calls hand out tokens, their recorded texts together are what the stream has
passed; each one is made up of the blanks up to its token and the token's own text, and only
that of the end may be empty. Once the end is among the tokens, all of the source is
recorded. Handing out ends after one token for each character at most, with the end or an
error, so no more tokens are taken. To the same calls, a stream that does not record the
source gives the same answers without the recorded texts. -/
theorem source_map_is_lossless (source : String) :
    (∀ calls tokens after,
      (TokenStream.ofText source true).answers calls =
        (tokens.map fun token => some (.ok token), after) →
      after.cursor.HasPassed (rawText tokens) source.toList ∧
      (∀ earlier token later, tokens = earlier ++ token :: later →
        token.Accounts (rawText earlier) ∧
        (token.content ≠ .ending → token.rawText ≠ [])) ∧
      ((∃ token ∈ tokens, token.content = .ending) → rawText tokens = source.toList)) ∧
    (∀ mapped, ∃ (tokens : List Token) (last : Except LexError Token),
      (TokenStream.ofText source mapped).remaining = tokens.map .ok ++ [last] ∧
      TokenStream.isFinal last = true ∧ (∀ token ∈ tokens, token.content ≠ .ending) ∧
      tokens.length ≤ source.length) ∧
    (∀ tokens, tokenize source true = .ok tokens → rawText tokens = source.toList) ∧
    (∀ mapped tokens, tokenize source mapped = .ok tokens →
      tokens.length ≤ source.length + 1) ∧
    (∀ calls, ((TokenStream.ofText source false).answers calls).1 =
      ((TokenStream.ofText source true).answers calls).1.map
        (Option.map (Except.map Token.withoutRaw))) := by
  refine ⟨?_, ?_, fun _ => rawText_of_tokenize, fun _ _ taken => (length_of_tokenize taken).1, ?_⟩
  · intro calls tokens after answered
    obtain ⟨passed, each, complete⟩ := accounts_ofText answered
    refine ⟨passed, fun earlier token later split => ?_, complete⟩
    have accounts := each earlier token later split
    exact ⟨accounts, accounts.rawText_ne_nil⟩
  · intro mapped
    obtain ⟨tokens, last, remaining, final, more, short⟩ :=
      (TokenStream.ofText source mapped).exists_remaining rfl
    rw [← String.length_toList]
    exact ⟨tokens, last, remaining, final, more, short⟩
  · intro calls
    exact congrArg Prod.fst ((TokenStream.ofText source true).answers_unmapped calls)

/-- A colon, the blank behind it, a number and the end with a last blank account for all of
a text, whichever way they are asked for. -/
theorem source_map_of_colon :
    ∃ tokens after, (TokenStream.ofText ": 1 " true).answers [.pull, .next, .pull, .next] =
        (tokens.map fun token => some (.ok token), after) ∧
      rawText tokens = ": 1 ".toList := by
  obtain ⟨lossless, _⟩ := source_map_is_lossless ": 1 "
  have answered : (TokenStream.ofText ": 1 " true).answers [.pull, .next, .pull, .next] =
      ([⟨.lexeme .colon, ⟨0, 0, 0⟩, some ":"⟩, ⟨.space " ", ⟨1, 0, 1⟩, some " "⟩,
        ⟨.lexeme (.number "1"), ⟨2, 0, 2⟩, some "1"⟩,
        ⟨.ending, ⟨4, 0, 4⟩, some " "⟩].map fun token => some (.ok token),
        ⟨": 1 ", true, ⟨⟨4, 0, 4⟩, []⟩, false, true⟩) := by decide +kernel
  exact ⟨_, _, answered, (lossless _ _ _ answered).2.2 (by simp)⟩

end EdgeExpression
