import EdgeExpression.Proofs.Insertion
import EdgeExpression.Proofs.LongestMatch
import EdgeExpression.Proofs.MixedCalls

/-!
# Blanks behind a colon

Blanks are a token of their own behind a colon, and behind nothing else that was handed out. A
stream remembers the colon until it hands out another token. A call that fails hands out none, and
so it leaves the colon in mind although it may have passed some text.

Hence blanks that stand directly behind a colon always become a token. The converse needs that the
call before did not fail: behind a fault, blanks become a token if the last token was a colon, no
matter what stands in between.
-/
namespace EdgeExpression
namespace TokenStream

variable {stream after last : TokenStream} {calls : List Call} {result : Except LexError Token}
  {results : List (Except LexError Token)} {token : Token}

/-! ## One call -/

/-- Whatever is handed out, except for the end, decides whether a colon is remembered; a fault
does not. -/
theorem afterColon_of_pull (pulled : stream.pull = (result, after)) :
    (∀ token, result = .ok token → token.content ≠ .ending →
      after.afterColon = (token.content == .lexeme .colon)) ∧
    ∀ error, result = .error error → after.afterColon = stream.afterColon := by
  have matched := longestMatch_pull stream
  rw [pulled] at matched
  cases matched with
  | space => simp [TokenStream.token]
  | ending => simp [TokenStream.token]
  | lexeme => simp [TokenStream.token]
  | misfit => simp
  | cutShort => simp

/-- There are blanks to skip if the next character is one. -/
theorem takeWhile_isBlank_ne_nil_iff (text : List Char) :
    text.takeWhile isBlank ≠ [] ↔ ∃ c ∈ text.head?, isBlank c = true := by
  cases text with
  | nil => simp
  | cons c rest => by_cases blank : isBlank c <;> simp [blank]

/-- A token of blanks is handed out if a colon is remembered, and it is all blanks that stand at
the cursor. -/
theorem space_of_pull {run : String} (pulled : stream.pull.1 = .ok token)
    (space : token.content = .space run) :
    stream.afterColon = true ∧ (∃ c ∈ stream.cursor.rest.head?, isBlank c = true) ∧
      run = String.ofList (stream.cursor.rest.takeWhile isBlank) ∧
      token.position = stream.cursor.position := by
  rcases pull_cases stream with ⟨colon, nonempty, answered⟩ | ⟨_, answered⟩
  · rw [answered] at pulled
    obtain rfl := Except.ok.inj pulled
    obtain rfl := Content.space.inj space
    exact ⟨colon, (takeWhile_isBlank_ne_nil_iff _).mp nonempty, rfl, rfl⟩
  · rw [answered, pullBehindBlanks] at pulled
    split at pulled
    · obtain rfl := Except.ok.inj pulled
      cases space
    · obtain rfl := Except.ok.inj pulled
      cases space
    · cases pulled

/-- Blanks are a token exactly if a colon is remembered and a blank stands there. -/
theorem exists_space_iff (stream : TokenStream) :
    (∃ token run, stream.pull.1 = .ok token ∧ token.content = .space run) ↔
      stream.afterColon = true ∧ ∃ c ∈ stream.cursor.rest.head?, isBlank c = true := by
  constructor
  · rintro ⟨token, run, pulled, space⟩
    obtain ⟨colon, blank, _⟩ := space_of_pull pulled space
    exact ⟨colon, blank⟩
  · rintro ⟨colon, blank⟩
    rcases pull_cases stream with ⟨_, _, answered⟩ | ⟨none, _⟩
    · rw [answered]
      exact ⟨_, _, rfl, rfl⟩
    · exact absurd (none colon) ((takeWhile_isBlank_ne_nil_iff _).mpr blank)

/-! ## Along pulls -/

/-- The tokens among results, without the errors. -/
def tokensOf (results : List (Except LexError Token)) : List Token :=
  results.filterMap Except.toOption

/-- If the last result is no error, it is the last token. -/
theorem exists_concat_of_getLast? {content : Content}
    (last : (tokensOf results).getLast?.map Token.content = some content)
    (sound : ∀ error, results.getLast? ≠ some (.error error)) :
    ∃ before token, results = before ++ [.ok token] ∧ token.content = content := by
  rcases List.eq_nil_or_concat results with rfl | ⟨before, result, rfl⟩
  · simp [tokensOf] at last
  · rw [List.concat_eq_append] at last sound ⊢
    cases result with
    | error error => exact absurd List.getLast?_concat (sound error)
    | ok token =>
        have final : tokensOf (before ++ [.ok token]) = tokensOf before ++ [token] := by
          rw [tokensOf, List.filterMap_append]
          rfl
        rw [final, List.getLast?_concat] at last
        exact ⟨before, token, rfl, Option.some.inj last⟩

/-- As long as some text is left, the end has not been handed out. -/
theorem Pulls.ne_ending {ended : Bool} (rest : Pulls { after with ended := ended } results last)
    (left : last.cursor.rest ≠ []) (pulled : stream.pull = (.ok token, after)) :
    token.content ≠ .ending := by
  intro ending
  obtain ⟨_, _, _, _, _, finished⟩ := pull_token pulled
  exact left (rest.of_finished (finished ending)).1

/-- As long as some text is left, a stream remembers a colon exactly if that is the last token
that was pulled, or if none was and it did before. Proof: by induction on the pulls. -/
theorem Pulls.afterColon_eq (pulls : stream.Pulls results last) (left : last.cursor.rest ≠ []) :
    last.afterColon = ((tokensOf results).getLast?.map
      fun token => token.content == .lexeme .colon).getD stream.afterColon := by
  induction pulls with
  | nil => rfl
  | @cons stream behind last result results ended pulled rest induction =>
      obtain ⟨decides, keeps⟩ := afterColon_of_pull pulled
      rw [induction left]
      cases result with
      | error error => exact congrArg (Option.getD _) (keeps error rfl)
      | ok token =>
          -- This token decides, and what was remembered before it is forgotten.
          have known := decides token rfl (rest.ne_ending left pulled)
          have first : tokensOf (.ok token :: results) = token :: tokensOf results := rfl
          rw [first, List.getLast?_cons, known]
          cases (tokensOf results).getLast? <;> rfl

/-! ## The character in front -/

/-- In front of the cursor stands a colon that was handed out as a token. -/
def BehindColon (stream : TokenStream) (results : List (Except LexError Token)) : Prop :=
  ∃ token, .ok token ∈ results ∧ token.content = .lexeme .colon ∧
    charAt stream.source.toList token.position.offset = some ':' ∧
    token.position.offset + 1 = stream.cursor.position.offset

/-- A colon that is handed out stands directly in front of the cursor then, and is remembered. -/
theorem colon_of_pull (placed : stream.IsPlaced) (pulled : stream.pull = (.ok token, after))
    (colon : token.content = .lexeme .colon) :
    after.afterColon = true ∧ charAt stream.source.toList token.position.offset = some ':' ∧
      token.position.offset + 1 = after.cursor.position.offset := by
  obtain ⟨content, position, raw⟩ := token
  obtain rfl : content = .lexeme .colon := colon
  obtain ⟨seen, known⟩ := look_of_pull pulled
  obtain ⟨blanks, own, passes, rfl, found⟩ := Cursor.look_eq_lexeme_iff.mp seen
  obtain rfl : own = [':'] := scan_found_written found
  refine ⟨known, Cursor.charAt_of_look_eq_lexeme placed seen, ?_⟩
  rw [passes.position, Position.offset_past _ [':']]
  rfl

/-- Pulls never lead back. -/
theorem Pulls.offset_le (pulls : stream.Pulls results last) :
    stream.cursor.position.offset ≤ last.cursor.position.offset := by
  induction pulls with
  | nil => exact Nat.le_refl _
  | cons ended pulled _ induction =>
      obtain ⟨⟨blanks, own, passes⟩, _⟩ := pull_passes pulled
      exact Nat.le_trans passes.offset_le induction

/-- If pulls lead nowhere but text is left, they have handed out no tokens. -/
theorem Pulls.tokensOf_eq_nil (pulls : stream.Pulls results last)
    (stays : last.cursor.position.offset = stream.cursor.position.offset)
    (left : last.cursor.rest ≠ []) : tokensOf results = [] := by
  induction pulls with
  | nil => rfl
  | @cons stream behind last result results ended pulled rest induction =>
      obtain ⟨⟨blanks, own, passes⟩, _⟩ := pull_passes pulled
      have least := passes.offset_le
      have most : behind.cursor.position.offset ≤ last.cursor.position.offset := rest.offset_le
      cases result with
      | error error => exact induction (Nat.le_antisymm (stays ▸ least) most) left
      | ok token =>
          have inside := offset_le_of_pull pulled
          have beyond := offset_lt_of_pull pulled (rest.ne_ending left pulled)
          omega

section OfText

variable {source : String} {mapped : Bool}

/-- Any calls pull their answers from a text and lead to the stream behind them. -/
theorem pulls_afterCalls (source : String) (mapped : Bool) (calls : List Call) :
    (ofText source mapped).Pulls ((ofText source mapped).results calls)
      (afterCalls source mapped calls) :=
  pulls_results (ofText source mapped) calls

/-- A colon among the results was pulled: the stream behind it remembers it and stands directly
behind it, and the other results are pulled from there. -/
theorem Pulls.exists_behind_colon {before later : List (Except LexError Token)}
    (pulls : (ofText source mapped).Pulls (before ++ .ok token :: later) last)
    (colon : token.content = .lexeme .colon) :
    charAt source.toList token.position.offset = some ':' ∧
      ∃ behind : TokenStream, behind.afterColon = true ∧
        token.position.offset + 1 = behind.cursor.position.offset ∧ behind.Pulls later last := by
  obtain ⟨here, behind, ended, inFront, pulled, rest⟩ := pulls.split
  obtain ⟨placed, same, _⟩ := inFront.isPlaced (isPlaced_ofText source mapped)
  obtain ⟨known, shown, offset⟩ := colon_of_pull placed pulled colon
  rw [same] at shown
  exact ⟨shown, { behind with ended := ended }, known, offset, rest⟩

/-- A stream on a text remembers a colon exactly if that is the last token it has handed out, as
long as some text is left. -/
theorem afterColon_afterCalls (left : (afterCalls source mapped calls).cursor.rest ≠ []) :
    (afterCalls source mapped calls).afterColon = true ↔
      (tokensOf ((ofText source mapped).results calls)).getLast?.map Token.content =
        some (.lexeme .colon) := by
  rw [(pulls_afterCalls source mapped calls).afterColon_eq left]
  cases (tokensOf ((ofText source mapped).results calls)).getLast? <;> simp [ofText]

/-- Directly behind a colon that was handed out it is remembered, as long as some text is left:
no other token has been handed out since. -/
theorem afterColon_of_behindColon
    (behind : (afterCalls source mapped calls).BehindColon ((ofText source mapped).results calls))
    (left : (afterCalls source mapped calls).cursor.rest ≠ []) :
    (afterCalls source mapped calls).afterColon = true := by
  obtain ⟨token, member, colon, _, offset⟩ := behind
  obtain ⟨before, later, split⟩ := List.append_of_mem member
  have pulls := pulls_afterCalls source mapped calls
  rw [split] at pulls
  obtain ⟨_, there, known, place, rest⟩ := pulls.exists_behind_colon colon
  rw [rest.afterColon_eq left, rest.tokensOf_eq_nil (offset.symm.trans place) left]
  exact known

/-- If the last result is a colon, the stream stands behind it. -/
theorem behindColon_of_last {before : List (Except LexError Token)}
    (split : (ofText source mapped).results calls = before ++ [.ok token])
    (colon : token.content = .lexeme .colon) :
    (afterCalls source mapped calls).BehindColon ((ofText source mapped).results calls) := by
  have pulls := pulls_afterCalls source mapped calls
  obtain ⟨_, same, _⟩ := pulls.isPlaced (isPlaced_ofText source mapped)
  rw [split] at pulls
  obtain ⟨shown, there, _, place, rest⟩ := pulls.exists_behind_colon colon
  cases rest with
  | nil => exact ⟨token, by simp [split], colon, by rw [same]; exact shown, place⟩

end OfText

/-- A pull hands out blanks as a token exactly if the last token was a colon and a blank follows;
the token is then all blanks that follow. Blanks directly behind a colon that was handed out are
always a token. Other blanks are one only if the call before failed, since a call that fails may
have led on from the colon. -/
theorem space_is_last_behind_colon (source : String) (mapped : Bool) (calls : List Call) :
    ((∃ token run, (afterCalls source mapped calls).pull.1 = .ok token ∧
        token.content = .space run) ↔
      (tokensOf ((ofText source mapped).results calls)).getLast?.map Token.content =
          some (.lexeme .colon) ∧
        ∃ c ∈ (afterCalls source mapped calls).cursor.rest.head?, isBlank c = true) ∧
    (∀ token run, (afterCalls source mapped calls).pull.1 = .ok token →
      token.content = .space run →
      run = String.ofList ((afterCalls source mapped calls).cursor.rest.takeWhile isBlank) ∧
        token.position = (afterCalls source mapped calls).cursor.position) ∧
    ((afterCalls source mapped calls).BehindColon ((ofText source mapped).results calls) →
      (∃ c ∈ (afterCalls source mapped calls).cursor.rest.head?, isBlank c = true) →
      ∃ token run, (afterCalls source mapped calls).pull.1 = .ok token ∧
        token.content = .space run) ∧
    ((∃ token run, (afterCalls source mapped calls).pull.1 = .ok token ∧
        token.content = .space run) →
      (∀ error, ((ofText source mapped).results calls).getLast? ≠ some (.error error)) →
      (afterCalls source mapped calls).BehindColon ((ofText source mapped).results calls)) := by
  have present (blank : ∃ c ∈ (afterCalls source mapped calls).cursor.rest.head?,
      isBlank c = true) : (afterCalls source mapped calls).cursor.rest ≠ [] := by
    rintro none
    simp [none] at blank
  have exactly := exists_space_iff (afterCalls source mapped calls)
  refine ⟨?_, ?_, ?_, ?_⟩
  · rw [exactly]
    exact and_congr_left fun blank => afterColon_afterCalls (present blank)
  · intro token run pulled space
    exact (space_of_pull pulled space).2.2
  · intro behind blank
    exact exactly.mpr ⟨afterColon_of_behindColon behind (present blank), blank⟩
  · intro space sound
    obtain ⟨known, blank⟩ := exactly.mp space
    have last := (afterColon_afterCalls (present blank)).mp known
    obtain ⟨before, token, split, colon⟩ := exists_concat_of_getLast? last sound
    exact behindColon_of_last split colon

/-- Behind a colon two blanks are one token, with the stream directly behind the colon. -/
theorem space_is_last_behind_colon_in_entry :
    (afterCalls "'a':  1" false [.pull, .next]).pull.1 =
        .ok ⟨.space "  ", ⟨4, 0, 4⟩, none⟩ ∧
      (∀ error, ((ofText "'a':  1" false).results [.pull, .next]).getLast? ≠
        some (.error error)) ∧
      (afterCalls "'a':  1" false [.pull, .next]).BehindColon
        ((ofText "'a':  1" false).results [.pull, .next]) ∧
      ∃ token run, (afterCalls "'a':  1" false [.pull, .next]).pull.1 = .ok token ∧
        token.content = .space run := by
  have handed : (afterCalls "'a':  1" false [.pull, .next]).pull.1 =
      .ok ⟨.space "  ", ⟨4, 0, 4⟩, none⟩ := by decide +kernel
  have results : (ofText "'a':  1" false).results [.pull, .next] =
      [.ok ⟨.lexeme (.literal "a"), ⟨0, 0, 0⟩, none⟩,
        .ok ⟨.lexeme .colon, ⟨3, 0, 3⟩, none⟩] := by decide +kernel
  have left : (afterCalls "'a':  1" false [.pull, .next]).cursor.rest = [' ', ' ', '1'] := by
    decide +kernel
  obtain ⟨_, _, directly, converse⟩ := space_is_last_behind_colon "'a':  1" false [.pull, .next]
  have sound : ∀ error, ((ofText "'a':  1" false).results [.pull, .next]).getLast? ≠
      some (.error error) := by simp [results]
  have behind := converse ⟨_, _, handed, rfl⟩ sound
  exact ⟨handed, sound, behind, directly behind ⟨' ', by rw [left]; rfl, by decide⟩⟩

/-- Not every token of blanks stands directly behind a colon: here a call that failed has passed a
dollar sign in between. -/
theorem exists_space_not_behind_colon :
    ¬ ∀ (source : String) (mapped : Bool) (calls : Nat),
      (∃ token run, (afterCalls source mapped (List.replicate calls .pull)).pull.1 = .ok token ∧
        token.content = .space run) ↔
      (afterCalls source mapped (List.replicate calls .pull)).BehindColon
          ((ofText source mapped).results (List.replicate calls .pull)) ∧
        ∃ c ∈ (afterCalls source mapped (List.replicate calls .pull)).cursor.rest.head?,
          isBlank c = true := by
  intro law
  have handed : (afterCalls ":$ 1" false [.pull, .pull]).pull.1 =
      .ok ⟨.space " ", ⟨2, 0, 2⟩, none⟩ := by decide +kernel
  have results : (ofText ":$ 1" false).results [.pull, .pull] =
      [.ok ⟨.lexeme .colon, ⟨0, 0, 0⟩, none⟩, .error ⟨.unexpectedChar ' ', ⟨2, 0, 2⟩⟩] := by
    decide +kernel
  have place : (afterCalls ":$ 1" false [.pull, .pull]).cursor.position.offset = 2 := by
    decide +kernel
  obtain ⟨⟨token, member, _, _, offset⟩, _⟩ := (law ":$ 1" false 2).mp ⟨_, _, handed, rfl⟩
  have member : .ok token ∈ (ofText ":$ 1" false).results [.pull, .pull] := member
  have offset : token.position.offset + 1 =
      (afterCalls ":$ 1" false [.pull, .pull]).cursor.position.offset := offset
  obtain rfl : token = ⟨.lexeme .colon, ⟨0, 0, 0⟩, none⟩ := by simpa [results] using member
  rw [place] at offset
  cases offset

end TokenStream
end EdgeExpression
