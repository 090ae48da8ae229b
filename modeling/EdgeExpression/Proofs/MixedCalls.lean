import EdgeExpression.Proofs.SourceMap

/-!
# Mixed calls

The two ways to ask for a token share one cursor, and only one of them knows when to stop. So it
does not matter how they are mixed: the tokens come in the order of the text up to the first
error, and behind the end of the text there is nothing but the end, again and again. Nothing is
answered only to those who ask for what is next, and only once they have been told of the end or
of an error.

A stream that is copied goes on like its original, and neither notices what is asked of the other.
-/
namespace EdgeExpression
namespace TokenStream

variable {stream after : TokenStream} {call : Call} {calls : List Call}
  {result : Except LexError Token}

/-- What a stream answers to calls, where it answers at all. -/
def results (stream : TokenStream) (calls : List Call) : List (Except LexError Token) :=
  (stream.answers calls).1.reduceOption

/-- Without a call there is no answer. -/
@[simp] theorem results_nil (stream : TokenStream) : stream.results [] = [] := rfl

/-- A call without an answer adds nothing to the answers. -/
theorem results_cons_of_none (unanswered : stream.answer call = (none, after))
    (calls : List Call) : stream.results (call :: calls) = after.results calls := by
  rw [results, answers, unanswered]
  rfl

/-- The answer to a call comes in front of those to later calls. -/
theorem results_cons_of_some (answered : stream.answer call = (some result, after))
    (calls : List Call) : stream.results (call :: calls) = result :: after.results calls := by
  rw [results, answers, answered]
  rfl

/-- Results are pulled from a stream one after the other, which leads to another stream. For pulls
it is of no account whether a stream has ended. -/
inductive Pulls : TokenStream → List (Except LexError Token) → TokenStream → Prop where
  | nil (stream : TokenStream) : Pulls stream [] stream
  | cons {stream behind last : TokenStream} {result : Except LexError Token}
      {results : List (Except LexError Token)} (ended : Bool) : stream.pull = (result, behind) →
      Pulls { behind with ended := ended } results last → Pulls stream (result :: results) last

/-- The results of calls are pulled, whichever way the calls ask. -/
theorem pulls_results (stream : TokenStream) (calls : List Call) :
    stream.Pulls (stream.results calls) (stream.answers calls).2 := by
  induction calls generalizing stream with
  | nil => exact .nil stream
  | cons call calls induction =>
      rcases answer_cases stream call with ⟨_, _, nothing⟩ | ⟨ended, answered⟩
      · rw [results_cons_of_none nothing, answers, nothing]
        exact induction stream
      · rw [results_cons_of_some answered, answers, answered]
        exact .cons ended (Prod.eta stream.pull).symm (induction _)

namespace Pulls

variable {last : TokenStream} {results before later : List (Except LexError Token)}

/-- Each of the results is pulled behind those before it, and those after it are pulled behind
it. -/
theorem split (pulls : stream.Pulls (before ++ result :: later) last) :
    ∃ (here behind : TokenStream) (ended : Bool), stream.Pulls before here ∧
      here.pull = (result, behind) ∧ Pulls { behind with ended := ended } later last := by
  induction before generalizing stream with
  | nil =>
      cases pulls with
      | cons ended pulled others => exact ⟨stream, _, ended, .nil stream, pulled, others⟩
  | cons first before induction =>
      cases pulls with
      | cons ended pulled others =>
          obtain ⟨here, behind, endedThere, between, found, rest⟩ := induction others
          exact ⟨here, behind, endedThere, .cons ended pulled between, found, rest⟩

/-- Pulling keeps a stream in its place in the same text. -/
theorem isPlaced (pulls : stream.Pulls results last) (placed : stream.IsPlaced) :
    last.IsPlaced ∧ last.source = stream.source ∧ last.mapped = stream.mapped := by
  induction pulls with
  | nil => exact ⟨placed, rfl, rfl⟩
  | cons ended pulled _ induction =>
      obtain ⟨_, source, mapped, _⟩ := pull_passes pulled
      have here := placed.pull pulled
      obtain ⟨there, sameSource, sameMapped⟩ := induction here
      exact ⟨there, sameSource.trans source, sameMapped.trans mapped⟩

end Pulls

/-! ## Up to the first error -/

/-- What a stream that has not ended hands out begins with what is pulled from it. -/
theorem remaining_of_running (running : stream.ended = false) :
    stream.remaining =
      stream.pull.1 :: { stream.pull.2 with ended := isFinal stream.pull.1 }.remaining := by
  have handed : stream.next =
      (some stream.pull.1, { stream.pull.2 with ended := isFinal stream.pull.1 }) := by
    simp [next, running]
  rw [remaining]
  split <;> simp_all

/-- In front of the end and of errors, both calls have the same answer and the same effect. -/
theorem answer_of_running (running : stream.ended = false) (call : Call) :
    ∃ after, stream.answer call = (some stream.pull.1, after) ∧
      (isFinal stream.pull.1 = false → after = { stream.pull.2 with ended := false }) := by
  cases call with
  | pull =>
      have still : stream.pull.2.ended = false :=
        (pull_passes (Prod.eta stream.pull).symm).2.2.2.trans running
      exact ⟨_, rfl, fun _ => by rw [← still]⟩
  | next =>
      have answered : stream.answer .next =
          (some stream.pull.1, { stream.pull.2 with ended := isFinal stream.pull.1 }) := by
        simp [answer, next, running]
      exact ⟨_, answered, fun more => by rw [more]⟩

/-- As long as there is no end and no error, results are what the stream hands out. Proof: by
induction on the calls, the first of which takes away the first token, whichever way it asks. -/
theorem getElem?_remaining_of_results (running : stream.ended = false) {i : Nat}
    (found : (stream.results calls)[i]? = some result)
    (inFront : ∀ earlier ∈ (stream.results calls).take i, isFinal earlier = false) :
    stream.remaining[i]? = some result := by
  induction calls generalizing stream i with
  | nil => simp at found
  | cons call calls induction =>
      obtain ⟨after, answered, goesOn⟩ := answer_of_running running call
      rw [results_cons_of_some answered] at found inFront
      rw [remaining_of_running running]
      cases i with
      | zero => exact found
      | succ i =>
          rw [List.take_succ_cons, List.forall_mem_cons] at inFront
          obtain ⟨more, others⟩ := inFront
          obtain rfl := goesOn more
          rw [List.getElem?_cons_succ] at found ⊢
          rw [more]
          exact induction rfl found others

/-! ## Behind the end -/

/-- The end, without any text in front of it. -/
def endingAgain (stream : TokenStream) : Token :=
  ⟨.ending, stream.cursor.position, if stream.mapped then some "" else none⟩

/-- Where no text is left, a pull answers with the end and changes nothing. -/
theorem pull_of_finished (finished : stream.cursor.rest = []) :
    stream.pull = (.ok stream.endingAgain, stream) := by
  have stays : stream.cursor.skip isBlank = stream.cursor := by
    rw [Cursor.skip, finished]
    exact Cursor.drop_zero _
  have seen : stream.cursor.look = .ending stream.cursor := by
    rw [Cursor.look, stays, Cursor.lookHere, finished]
    rfl
  rcases pull_cases stream with ⟨_, nonempty, _⟩ | ⟨_, behindBlanks⟩
  · rw [finished] at nonempty
    exact absurd rfl nonempty
  · have nothing : stream.cursor.upTo stream.cursor = [] := by rw [Cursor.upTo, finished]; rfl
    rw [behindBlanks, pullBehindBlanks, seen]
    simp only [token, nothing, endingAgain]

/-- Where no text is left, none is left later, and every result is the end. -/
theorem Pulls.of_finished {last : TokenStream} {results : List (Except LexError Token)}
    (pulls : stream.Pulls results last) (finished : stream.cursor.rest = []) :
    last.cursor.rest = [] ∧ ∀ later ∈ results, later = .ok stream.endingAgain := by
  induction pulls with
  | nil => exact ⟨finished, by simp⟩
  | cons ended pulled _ induction =>
      obtain ⟨rfl, rfl⟩ := Prod.mk.inj ((pull_of_finished finished).symm.trans pulled)
      obtain ⟨none, others⟩ := induction finished
      exact ⟨none, List.forall_mem_cons.mpr ⟨rfl, others⟩⟩

/-- In its place and with no text left, a stream stands behind its whole text. -/
theorem IsPlaced.position_of_finished (placed : stream.IsPlaced)
    (finished : stream.cursor.rest = []) :
    stream.cursor.position = Position.origin.past stream.source.toList := by
  obtain ⟨passed, split, position⟩ := placed
  rw [position, split, finished, List.append_nil]

/-- Behind the end, and be it behind errors, every result is the end, at the same place and
without text. -/
theorem Pulls.later_of_ending {last : TokenStream} {token : Token}
    {before later : List (Except LexError Token)}
    (pulls : stream.Pulls (before ++ .ok token :: later) last) (placed : stream.IsPlaced)
    (ending : token.content = .ending) :
    ∀ other ∈ later, other = .ok ⟨.ending, Position.origin.past stream.source.toList,
      if stream.mapped then some "" else none⟩ := by
  obtain ⟨here, behind, ended, inFront, pulled, rest⟩ := pulls.split
  obtain ⟨there, source, mapped⟩ := inFront.isPlaced placed
  obtain ⟨_, sameSource, sameMapped, _⟩ := pull_passes pulled
  obtain ⟨_, _, _, _, _, finished⟩ := pull_token pulled
  have position := (there.pull pulled).position_of_finished (finished ending)
  rw [← source, ← mapped, ← sameSource, ← sameMapped, ← position]
  exact (rest.of_finished (finished ending)).2

/-! ## When nothing is answered -/

/-- A stream has ended if it had before, or if a call for what is next was answered with the end
or an error. -/
theorem ended_answer_iff (stream : TokenStream) (call : Call) :
    (stream.answer call).2.ended = true ↔ stream.ended = true ∨
      call = .next ∧ ∃ result, (stream.answer call).1 = some result ∧ isFinal result = true := by
  cases call with
  | pull =>
      have still : stream.pull.2.ended = stream.ended :=
        (pull_passes (Prod.eta stream.pull).symm).2.2.2
      simp [answer, still]
  | next =>
      cases running : stream.ended <;> simp [answer, next, running]

/-- Nothing is answered exactly to calls for what is next, and if the stream had ended or such a
call was answered with the end or an error before. -/
theorem getElem?_answers_eq_none_iff {i : Nat} (asked : calls[i]? = some call) :
    (stream.answers calls).1[i]? = some none ↔ call = .next ∧ (stream.ended = true ∨
      ∃ j < i, calls[j]? = some .next ∧
        ∃ result, (stream.answers calls).1[j]? = some (some result) ∧ isFinal result = true) := by
  induction calls generalizing stream i with
  | nil => simp at asked
  | cons first calls induction =>
      rw [answers]
      cases i with
      | zero =>
          obtain rfl : first = call := by simpa using asked
          cases first with
          | pull => simp [answer]
          | next => cases running : stream.ended <;> simp [answer, next, running]
      | succ i =>
          rw [List.getElem?_cons_succ] at asked ⊢
          rw [induction asked, ended_answer_iff, or_assoc, Nat.exists_lt_succ_left]
          simp

end TokenStream

/-! ## Copies -/

/-- What may be asked where there are several streams, which are numbered: a call on one of them,
or a copy of one, which becomes the last of them. -/
inductive Request where
  | ask (number : Nat) (call : Call)
  | copy (number : Nat)
deriving Repr, DecidableEq, Inhabited

/-- The call on a stream that a request makes, if it does. -/
def Request.callOn (number : Nat) : Request → Option Call
  | .ask other call => if other = number then some call else none
  | .copy _ => none

/-- The calls on a stream among requests. -/
def callsOn (number : Nat) (requests : List Request) : List Call :=
  requests.filterMap (Request.callOn number)

namespace TokenStream

/-- The streams behind a request. -/
def serve (streams : List TokenStream) : Request → List TokenStream
  | .ask number call => streams.modify number fun stream => (stream.answer call).2
  | .copy number => streams ++ streams[number]?.toList

/-- The streams behind requests that began with a single stream on a text. -/
def served (source : String) (mapped : Bool) (requests : List Request) : List TokenStream :=
  requests.foldl serve [ofText source mapped]

/-- What is answered to the calls on a stream among requests. -/
def answersOn (number : Nat) :
    List TokenStream → List Request → List (Option (Except LexError Token))
  | _, [] => []
  | streams, request :: requests =>
      match request.callOn number, streams[number]? with
      | some call, some stream =>
          (stream.answer call).1 :: answersOn number (serve streams request) requests
      | _, _ => answersOn number (serve streams request) requests

variable {streams : List TokenStream} {stream : TokenStream} {number : Nat}

/-- A request changes no other stream than the one that it calls. -/
theorem getElem?_serve (present : streams[number]? = some stream) (request : Request) :
    (serve streams request)[number]? = some (match request.callOn number with
      | some call => (stream.answer call).2
      | none => stream) := by
  cases request with
  | ask other call =>
      rw [serve, List.getElem?_modify, present, Request.callOn]
      by_cases same : other = number <;> simp [same]
  | copy other =>
      have inside : number < streams.length := (List.getElem?_eq_some_iff.mp present).1
      rw [serve, List.getElem?_append_left inside, present]
      rfl

/-- A stream answers to the calls on it as if there were no other requests. Proof: by induction
on the requests. -/
theorem answersOn_eq (present : streams[number]? = some stream) (requests : List Request) :
    answersOn number streams requests = (stream.answers (callsOn number requests)).1 ∧
      (requests.foldl serve streams)[number]? =
        some (stream.answers (callsOn number requests)).2 := by
  induction requests generalizing streams stream with
  | nil => exact ⟨rfl, present⟩
  | cons request requests induction =>
      have behind := getElem?_serve present request
      rw [answersOn, present, List.foldl_cons, callsOn, List.filterMap_cons]
      cases called : request.callOn number with
      | none =>
          rw [called] at behind
          exact induction behind
      | some call =>
          rw [called] at behind
          obtain ⟨answered, last⟩ := induction behind
          exact ⟨congrArg (List.cons (stream.answer call).1) answered, last⟩

/-- The stream that requests began with is left where the calls on it lead. -/
theorem served_original (source : String) (mapped : Bool) (requests : List Request) :
    (served source mapped requests)[0]? =
      some (afterCalls source mapped (callsOn 0 requests)) := by
  have alone : [ofText source mapped][0]? = some (ofText source mapped) := rfl
  exact (answersOn_eq alone requests).2

/-- A copy is the last stream, and stands where its original does. -/
theorem served_copy (source : String) (mapped : Bool) (requests : List Request) :
    (served source mapped (requests ++ [.copy 0]))[(served source mapped requests).length]? =
      some (afterCalls source mapped (callsOn 0 requests)) := by
  have copied : served source mapped (requests ++ [.copy 0]) =
      serve (served source mapped requests) (.copy 0) := by
    rw [served, List.foldl_append]
    rfl
  rw [copied, serve, served_original, List.getElem?_append_right (Nat.le_refl _)]
  simp

/-- However calls are mixed, up to the first error or the end their results are those that
the text has one after the other; and behind the end each result is the end again, at the end of
the text and without text of its own, errors or not. A call for what is next gets no answer exactly
if an earlier one was answered with the end or an error; other calls always get one. Copies of a
stream change nothing: the original answers as it would without them, and a copy as the original
would have done; so all that is left can be taken from a copy. -/
theorem mixed_calls_agree (source : String) (mapped : Bool) :
    (∀ (calls : List Call) (i : Nat) (result : Except LexError Token),
      ((ofText source mapped).results calls)[i]? = some result →
      (∀ earlier ∈ ((ofText source mapped).results calls).take i, isFinal earlier = false) →
      (ofText source mapped).remaining[i]? = some result) ∧
    (∀ (calls : List Call) (before later : List (Except LexError Token)) (token : Token),
      (ofText source mapped).results calls = before ++ .ok token :: later →
      token.content = .ending →
      ∀ other ∈ later, other = .ok ⟨.ending, Position.origin.past source.toList,
        if mapped then some "" else none⟩) ∧
    (∀ (calls : List Call) (i : Nat) (call : Call), calls[i]? = some call →
      (((ofText source mapped).answers calls).1[i]? = some none ↔
        call = .next ∧ ∃ j < i, calls[j]? = some .next ∧
          ∃ result, ((ofText source mapped).answers calls).1[j]? = some (some result) ∧
            isFinal result = true)) ∧
    ∀ (earlier later : List Request) (copy : Nat),
      copy = (served source mapped earlier).length →
      answersOn 0 [ofText source mapped] (earlier ++ .copy 0 :: later) =
        ((ofText source mapped).answers (callsOn 0 (earlier ++ later))).1 ∧
      answersOn copy (served source mapped (earlier ++ [.copy 0])) later =
        ((afterCalls source mapped (callsOn 0 earlier)).answers (callsOn copy later)).1 ∧
      (callsOn copy later = List.replicate
          (afterCalls source mapped (callsOn 0 earlier)).remaining.length .next →
        answersOn copy (served source mapped (earlier ++ [.copy 0])) later =
          (afterCalls source mapped (callsOn 0 earlier)).remaining.map some) := by
  refine ⟨?_, ?_, ?_, ?_⟩
  · intro calls i result found inFront
    exact getElem?_remaining_of_results rfl found inFront
  · intro calls before later token split ending
    have pulls := pulls_results (ofText source mapped) calls
    rw [split] at pulls
    exact pulls.later_of_ending (isPlaced_ofText source mapped) ending
  · intro calls i call asked
    rw [getElem?_answers_eq_none_iff asked]
    simp [ofText]
  · rintro earlier later copy rfl
    have alone : [ofText source mapped][0]? = some (ofText source mapped) := rfl
    have answered := (answersOn_eq (served_copy source mapped earlier) later).1
    refine ⟨?_, answered, fun drained => ?_⟩
    · rw [(answersOn_eq alone _).1, callsOn, callsOn, List.filterMap_append, List.filterMap_append]
      rfl
    · rw [answered, drained, answers_replicate_next]

/-- A fault that is pulled does not keep what is next from being answered; the end does. -/
theorem mixed_calls_agree_behind_fault :
    (ofText "1 = " true).results [.next, .pull, .next, .pull, .next] =
        [.ok ⟨.lexeme (.number "1"), ⟨0, 0, 0⟩, some "1"⟩,
          .error ⟨.unexpectedChar ' ', ⟨3, 0, 3⟩⟩, .ok ⟨.ending, ⟨4, 0, 4⟩, some " "⟩,
          .ok ⟨.ending, ⟨4, 0, 4⟩, some ""⟩] ∧
      (ofText "1 = " true).remaining[1]? = some (.error ⟨.unexpectedChar ' ', ⟨3, 0, 3⟩⟩) ∧
      (∀ other ∈ [(.ok ⟨.ending, ⟨4, 0, 4⟩, some ""⟩ : Except LexError Token)],
        other = .ok ⟨.ending, Position.origin.past "1 = ".toList, some ""⟩) ∧
      ((ofText "1 = " true).answers [.next, .pull, .next, .pull, .next]).1[4]? = some none := by
  have results : (ofText "1 = " true).results [.next, .pull, .next, .pull, .next] =
      [.ok ⟨.lexeme (.number "1"), ⟨0, 0, 0⟩, some "1"⟩,
        .error ⟨.unexpectedChar ' ', ⟨3, 0, 3⟩⟩, .ok ⟨.ending, ⟨4, 0, 4⟩, some " "⟩,
        .ok ⟨.ending, ⟨4, 0, 4⟩, some ""⟩] := by decide +kernel
  have ending : ((ofText "1 = " true).answers [.next, .pull, .next, .pull, .next]).1[2]? =
      some (some (.ok ⟨.ending, ⟨4, 0, 4⟩, some " "⟩)) := by decide +kernel
  obtain ⟨inOrder, behindEnd, unanswered, _⟩ := mixed_calls_agree "1 = " true
  refine ⟨results, ?_, ?_, ?_⟩
  · refine inOrder [.next, .pull, .next, .pull, .next] 1 _ (by rw [results]; rfl) ?_
    rw [results]
    simp [isFinal]
  · exact behindEnd _ [_, _] _ _ results rfl
  · exact (unanswered _ 4 .next rfl).mpr ⟨rfl, 2, by decide, rfl, _, ending, rfl⟩

end TokenStream
end EdgeExpression
