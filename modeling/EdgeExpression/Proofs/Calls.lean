import EdgeExpression.Proofs.Reading

/-!
# Calls on a token stream

A token stream may be asked for tokens in two ways, in any order, and also after an error.
Every answer is either nothing or what a pull hands out. So whatever holds of pulls holds
along all sequences of calls.

Recording the source text is a matter of the tokens alone: without it the same calls get
the same answers, but for the recorded texts.
-/
namespace EdgeExpression

/-- The two ways to ask a token stream for a token. -/
inductive Call where
  | pull
  | next
deriving Repr, DecidableEq, Inhabited

/-- A token without the source text that it accounts for. -/
def Token.withoutRaw (token : Token) : Token := { token with raw := none }

namespace TokenStream

/-- What a stream answers to a call, and the stream behind it. -/
def answer (stream : TokenStream) : Call → Option (Except LexError Token) × TokenStream
  | .pull => (some stream.pull.1, stream.pull.2)
  | .next => stream.next

/-- What a stream answers to calls, one after the other, and the stream behind them. -/
def answers : TokenStream → List Call → List (Option (Except LexError Token)) × TokenStream
  | stream, [] => ([], stream)
  | stream, call :: calls =>
      ((stream.answer call).1 :: ((stream.answer call).2.answers calls).1,
        ((stream.answer call).2.answers calls).2)

variable {stream after : TokenStream} {call : Call} {result : Except LexError Token}

/-- A stream that has ended has nothing next. Otherwise a call is answered by a pull, and
behind it no more is changed than whether the stream has ended. -/
theorem answer_cases (stream : TokenStream) (call : Call) :
    (call = .next ∧ stream.ended = true ∧ stream.answer call = (none, stream)) ∨
    ∃ ended, stream.answer call = (some stream.pull.1, { stream.pull.2 with ended := ended }) := by
  cases call with
  | pull => exact .inr ⟨stream.pull.2.ended, rfl⟩
  | next =>
      cases running : stream.ended with
      | true => exact .inl ⟨rfl, rfl, by simp [answer, next, running]⟩
      | false => exact .inr ⟨isFinal stream.pull.1, by simp [answer, next, running]⟩

/-- What a stream answers was pulled from it. -/
theorem pull_of_answer (answered : stream.answer call = (some result, after)) :
    ∃ behind ended, stream.pull = (result, behind) ∧ after = { behind with ended := ended } := by
  rcases answer_cases stream call with ⟨_, _, nothing⟩ | ⟨ended, pulled⟩
  · cases nothing.symm.trans answered
  · obtain ⟨same, rfl⟩ := Prod.mk.inj (pulled.symm.trans answered)
    obtain rfl := Option.some.inj same
    exact ⟨stream.pull.2, ended, rfl, rfl⟩

/-- If calls are answered by tokens only, the first token was pulled, and the other calls
are answered behind it. -/
theorem pull_of_answers_cons {calls : List Call} {tokens : List Token}
    (answered : stream.answers (call :: calls) =
      (tokens.map fun token => some (.ok token), after)) :
    ∃ token rest behind ended, tokens = token :: rest ∧ stream.pull = (.ok token, behind) ∧
      answers { behind with ended := ended } calls =
        (rest.map fun token => some (.ok token), after) := by
  rw [answers] at answered
  obtain ⟨results, final⟩ := Prod.mk.inj answered
  obtain ⟨token, rest, rfl, first, others⟩ := List.map_eq_cons_iff.mp results.symm
  obtain ⟨behind, ended, pulled, same⟩ := pull_of_answer (Prod.ext first.symm rfl)
  have answer : stream.answer call = (some (.ok token), { behind with ended := ended }) :=
    Prod.ext first.symm same
  rw [answer] at others final
  exact ⟨token, rest, behind, ended, rfl, pulled, Prod.ext others.symm final⟩

/-- Whatever a call is answered, blanks and then some text are passed; without an answer
nothing is. The text that is read stays the same. -/
theorem answer_passes (stream : TokenStream) (call : Call) :
    (∃ blanks own, stream.cursor.Passes blanks own (stream.answer call).2.cursor) ∧
      (stream.answer call).2.source = stream.source := by
  rcases answer_cases stream call with ⟨_, _, nothing⟩ | ⟨ended, pulled⟩
  · rw [nothing]
    exact ⟨⟨[], [], .refl stream.cursor⟩, rfl⟩
  · rw [pulled]
    obtain ⟨passes, source, _⟩ := pull_passes (Prod.eta stream.pull).symm
    exact ⟨passes, source⟩

/-- The stream behind calls on a text. -/
def afterCalls (source : String) (mapped : Bool) (calls : List Call) : TokenStream :=
  ((ofText source mapped).answers calls).2

/-- Whatever holds of a stream and is kept by every single call holds behind all calls. -/
theorem answers_induction {motive : TokenStream → Prop}
    (step : ∀ (stream : TokenStream) (call : Call), motive stream → motive (stream.answer call).2)
    (calls : List Call) (start : motive stream) : motive (stream.answers calls).2 := by
  induction calls generalizing stream with
  | nil => exact start
  | cons call calls induction => exact induction (step stream call start)

/-- Behind all calls on a text the stream is in its place in that text. -/
theorem isPlaced_afterCalls (source : String) (mapped : Bool) (calls : List Call) :
    (afterCalls source mapped calls).IsPlaced ∧
      (afterCalls source mapped calls).source = source := by
  have start : (ofText source mapped).IsPlaced ∧ (ofText source mapped).source = source :=
    ⟨isPlaced_ofText source mapped, rfl⟩
  refine answers_induction (motive := fun stream => stream.IsPlaced ∧ stream.source = source)
    ?_ calls start
  rintro stream call ⟨placed, same⟩
  obtain ⟨⟨blanks, own, passes⟩, kept⟩ := stream.answer_passes call
  refine ⟨?_, kept.trans same⟩
  rw [IsPlaced, kept]
  exact passes.isWithin placed

/-- All that is handed out one after the other answers as many calls. -/
theorem answers_replicate_next (stream : TokenStream) :
    (stream.answers (List.replicate stream.remaining.length .next)).1 =
      stream.remaining.map some := by
  fun_induction remaining stream with
  | case1 => rfl
  | case2 stream result after handed induction =>
      have answered : stream.answer .next = (some result, after) := handed
      rw [List.length_cons, List.replicate_succ, answers, answered, List.map_cons]
      exact congrArg _ induction

/-! ## Without the source text -/

/-- A stream that reads the same, but records no source text. -/
def unmapped (stream : TokenStream) : TokenStream := { stream with mapped := false }

/-- Without source texts the same token is handed out, without its source text. -/
theorem pull_unmapped (stream : TokenStream) :
    stream.unmapped.pull = (stream.pull.1.map Token.withoutRaw, stream.pull.2.unmapped) := by
  have run : stream.unmapped.spaceRun = stream.spaceRun := rfl
  unfold pull
  rw [run]
  split
  · have seen : stream.unmapped.cursor.look = stream.cursor.look := rfl
    unfold pullBehindBlanks
    rw [seen]
    split <;> rfl
  · rfl

/-- Source texts do not decide whether an answer is the last one. -/
theorem isFinal_withoutRaw (result : Except LexError Token) :
    isFinal (result.map Token.withoutRaw) = isFinal result := by
  cases result <;> rfl

/-- Without source texts every call has the same answer, but for the source text of a token. -/
theorem answer_unmapped (stream : TokenStream) (call : Call) :
    stream.unmapped.answer call =
      ((stream.answer call).1.map (Except.map Token.withoutRaw),
        (stream.answer call).2.unmapped) := by
  cases call with
  | pull => rw [answer, answer, pull_unmapped]; rfl
  | next =>
      have same : stream.unmapped.ended = stream.ended := rfl
      rw [answer, answer, next, next, same, pull_unmapped, isFinal_withoutRaw]
      split <;> rfl

/-- To the same calls a stream gives the same answers, whether it records source text or
not, but for the recorded texts. -/
theorem answers_unmapped (stream : TokenStream) (calls : List Call) :
    stream.unmapped.answers calls =
      ((stream.answers calls).1.map (Option.map (Except.map Token.withoutRaw)),
        (stream.answers calls).2.unmapped) := by
  induction calls generalizing stream with
  | nil => rfl
  | cons call calls induction =>
      rw [answers, answer_unmapped, induction]
      rfl

end TokenStream
end EdgeExpression
