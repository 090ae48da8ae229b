import EdgeExpression.Token
import EdgeExpression.Error
import EdgeExpression.Lexeme.Scan
import EdgeExpression.Text.Blank

/-!
# Token streams

A token stream hands out the tokens of a text one at a time. Blanks in front of a
lexeme or of the end are skipped, except directly behind a colon, where a run of
blanks is a token of its own. A read that fails leaves the stream behind the
characters it has read, and reading may go on from there.

There are two ways to read. `pull` always answers; at the end of the text it answers
with the end again and again. `next` answers until it has itself handed out the end
or an error, and then never again. The tokens of a whole text are what `next` hands
out, unless an error is among it.
-/
namespace EdgeExpression

/-- What stands at a cursor, behind the blanks there. -/
inductive Sight where
  /-- A lexeme, where it begins, and the cursor behind it. -/
  | lexeme (value : Lexeme) (start : Position) (behind : Cursor)
  /-- The end of the text. -/
  | ending (behind : Cursor)
  /-- No lexeme; the cursor where reading it stopped. -/
  | fault (stopped : Cursor)
deriving Repr, DecidableEq, Inhabited

namespace Cursor

/-- Reads the lexeme at a cursor, where no blank stands. -/
def lookHere (cursor : Cursor) : Sight :=
  if cursor.rest.isEmpty then .ending cursor
  else match scan cursor.rest with
    | .found lexeme read => .lexeme lexeme cursor.position (cursor.drop read.length)
    | .stuck read => .fault (cursor.drop read.length)

/-- Skips the blanks at a cursor and reads the lexeme behind them. -/
def look (cursor : Cursor) : Sight := (cursor.skip isBlank).lookHere

/-- A lexeme uses up some of the text. -/
theorem rest_lt_of_look_eq_lexeme {cursor behind : Cursor} {lexeme : Lexeme}
    {start : Position} (seen : cursor.look = .lexeme lexeme start behind) :
    behind.rest.length < cursor.rest.length := by
  unfold look lookHere at seen
  have skipped : (cursor.skip isBlank).rest.length ≤ cursor.rest.length := by
    rw [rest_skip]
    exact (List.dropWhile_sublist isBlank).length_le
  split at seen
  · cases seen
  · next remains =>
      split at seen
      · next read found =>
          cases seen
          have positive := List.length_pos_iff.mpr (scan_read_ne_nil found)
          have present : 0 < (cursor.skip isBlank).rest.length := by
            simpa [List.length_pos_iff] using remains
          rw [rest_drop, List.length_drop]
          omega
      · cases seen

end Cursor

/-- A text that is being read token by token. -/
structure TokenStream where
  source : String
  /-- Whether tokens record the source text they account for. -/
  mapped : Bool
  cursor : Cursor
  /-- Whether the last token handed out was a colon. -/
  afterColon : Bool
  /-- Whether `next` has handed out the end of the text or an error. -/
  ended : Bool
deriving Repr, DecidableEq, Inhabited

namespace TokenStream

/-- The stream at the beginning of a text. -/
def ofText (source : String) (mapped : Bool) : TokenStream :=
  ⟨source, mapped, .ofList source.toList, false, false⟩

/-- A token whose text ends at a given cursor. -/
def token (stream : TokenStream) (content : Content) (position : Position)
    (behind : Cursor) : Token :=
  ⟨content, position,
    if stream.mapped then some (String.ofList (stream.cursor.upTo behind)) else none⟩

/-- The blanks that are the next token, if any: the run of them behind a colon. -/
def spaceRun (stream : TokenStream) : List Char :=
  if stream.afterColon then stream.cursor.rest.takeWhile isBlank else []

/-- Reads the next token behind the blanks at the cursor. -/
def pullBehindBlanks (stream : TokenStream) : Except LexError Token × TokenStream :=
  match stream.cursor.look with
  | .lexeme value start behind =>
      (.ok (stream.token (.lexeme value) start behind),
        { stream with cursor := behind, afterColon := value == .colon })
  | .ending behind =>
      (.ok (stream.token .ending behind.position behind), { stream with cursor := behind })
  | .fault stopped => (.error (.stoppedAt stopped), { stream with cursor := stopped })

/-- Reads the next token, whatever was read before. -/
def pull (stream : TokenStream) : Except LexError Token × TokenStream :=
  match stream.spaceRun with
  | [] => stream.pullBehindBlanks
  | run =>
      (.ok (stream.token (.space (String.ofList run)) stream.cursor.position
          (stream.cursor.drop run.length)),
        { stream with cursor := stream.cursor.drop run.length, afterColon := false })

/-- Whether nothing is handed out by `next` behind this result. -/
def isFinal : Except LexError Token → Bool
  | .ok token => token.content == .ending
  | .error _ => true

/-- Reads the next token, or nothing once the end or an error has been handed out. -/
def next (stream : TokenStream) : Option (Except LexError Token) × TokenStream :=
  if stream.ended then (none, stream)
  else (some stream.pull.1, { stream.pull.2 with ended := isFinal stream.pull.1 })

/-- Every token but the end of the text uses up some of it. -/
theorem pull_rest_lt {stream after : TokenStream} {result : Except LexError Token}
    (pulled : stream.pull = (result, after)) (more : isFinal result = false) :
    after.cursor.rest.length < stream.cursor.rest.length := by
  unfold pull pullBehindBlanks at pulled
  split at pulled
  · split at pulled
    · next seen =>
        obtain ⟨_, rfl⟩ := Prod.mk.inj pulled
        exact Cursor.rest_lt_of_look_eq_lexeme seen
    · obtain ⟨rfl, _⟩ := Prod.mk.inj pulled
      simp [isFinal, token] at more
    · obtain ⟨rfl, _⟩ := Prod.mk.inj pulled
      simp [isFinal] at more
  · next nonempty =>
      obtain ⟨_, rfl⟩ := Prod.mk.inj pulled
      have positive : 0 < stream.spaceRun.length := List.length_pos_iff.mpr nonempty
      have inside : stream.spaceRun.length ≤ stream.cursor.rest.length := by
        unfold spaceRun
        split
        · exact (List.takeWhile_prefix isBlank).length_le
        · exact Nat.zero_le _
      simp only [Cursor.rest_drop, List.length_drop]
      omega

/-- The work that is left for `next`: nothing once it has ended, and otherwise the
characters that are left and the end behind them. -/
def work (stream : TokenStream) : Nat :=
  if stream.ended then 0 else stream.cursor.rest.length + 1

/-- Whatever `next` hands out was pulled from a stream that had not ended. -/
theorem pull_of_next {stream after : TokenStream} {result : Except LexError Token}
    (handed : stream.next = (some result, after)) :
    stream.ended = false ∧
      ∃ behind, stream.pull = (result, behind) ∧
        after = { behind with ended := isFinal result } := by
  unfold next at handed
  split at handed
  · cases handed
  · next running =>
      obtain ⟨same, rfl⟩ := Prod.mk.inj handed
      obtain rfl := Option.some.inj same
      exact ⟨Bool.eq_false_iff.mpr running, stream.pull.2, rfl, rfl⟩

/-- Whatever `next` hands out leaves less work. -/
theorem next_work_lt {stream after : TokenStream} {result : Except LexError Token}
    (handed : stream.next = (some result, after)) : after.work < stream.work := by
  obtain ⟨running, behind, pulled, rfl⟩ := pull_of_next handed
  cases final : isFinal result with
  | true => simp [work, running]
  | false =>
      have shorter := pull_rest_lt pulled final
      simp only [work, running]
      exact Nat.succ_lt_succ shorter

/-- Everything that `next` still hands out, in order. -/
def remaining (stream : TokenStream) : List (Except LexError Token) :=
  match _ : stream.next with
  | (none, _) => []
  | (some result, after) => result :: remaining after
termination_by stream.work
decreasing_by exact next_work_lt ‹_›

end TokenStream

/-- The tokens of a text up to its end, or the first error. -/
def tokenize (source : String) (mapped : Bool) : Except LexError (List Token) :=
  (TokenStream.ofText source mapped).remaining.mapM id

end EdgeExpression
