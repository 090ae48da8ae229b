import EdgeExpression.CommandLine.Log
import EdgeExpression.Proofs.Batch

/-!
# Standard input as a whole

All lines of standard input are read before anything is done with the first one. So input that is
not UTF-8 to its end leads to nothing but a remark, however much of it could have been handled; and
otherwise a run is the sequence of what is done with its lines.

Both hold with the log as without it. The log is written while an expression is handled, and adds
its lines to standard error in front of the remark on the expression: without them, a run leaves
behind what it would have left behind had there been no log.
-/
namespace EdgeExpression.CommandLine

/-! ## Runs with the log -/

/-- What a notice says about an expression: a line of the log says nothing. -/
def Notice.about : Notice → String
  | .logged _ => ""
  | .remark text => text

/-- What a run leaves behind but for the lines of the log. -/
def LoggedOutcome.withoutLog (run : LoggedOutcome) : Outcome :=
  ⟨run.code, run.stdout, String.join (run.stderr.map Notice.about)⟩

/-- The remarks of an outcome are all that it says on standard error. -/
theorem Outcome.join_remarks (outcome : Outcome) :
    String.join (outcome.remarks.map Notice.about) = outcome.stderr := by
  by_cases quiet : outcome.stderr = ""
  · rw [remarks, if_pos quiet, quiet]
    rfl
  · rw [remarks, if_neg quiet]
    exact String.join_cons.trans String.append_empty

/-- The lines of the log say nothing about expressions, however many there are. -/
theorem join_map_logged (events : List Event) :
    String.join ((events.map Notice.logged).map Notice.about) = "" := by
  rw [List.map_map]
  exact join_map_empty events

/-- The notices may stand for what is said on standard error, if they say it. -/
theorem Outcome.withoutLog_withNotices {outcome : Outcome} {stderr : List Notice}
    (same : String.join (stderr.map Notice.about) = outcome.stderr) :
    (outcome.withNotices stderr).withoutLog = outcome := by
  rw [withNotices, LoggedOutcome.withoutLog, same]

namespace Action

variable (action : Action) (wanted : Event → Bool) (hidden : Char → Bool)

/-- The notices about an expression say what is said without the log. -/
theorem join_notices (expression : String) :
    String.join ((action.notices wanted hidden expression).map Notice.about) =
      (action.perform expression hidden).stderr := by
  rw [notices, List.map_append, String.join_append, join_map_logged, Outcome.join_remarks,
    String.empty_append]

/-- The notices about expressions are those about each of them. -/
theorem join_flatMap_notices (expressions : List String) :
    String.join ((expressions.flatMap (action.notices wanted hidden)).map Notice.about) =
      (action.performAll expressions hidden).stderr := by
  induction expressions with
  | nil => rfl
  | cons expression rest induction =>
      rw [List.flatMap_cons, List.map_append, String.join_append, join_notices, induction,
        performAll_cons]
      rfl

/-- The log changes nothing but standard error, and adds nothing but its lines there. -/
theorem withoutLog_loggedOutcome (expressions : List String) (stdin : ByteArray) :
    (action.loggedOutcome wanted hidden expressions stdin).withoutLog =
      action.outcome expressions stdin hidden := by
  rw [loggedOutcome, outcome]
  cases handled? expressions stdin with
  | none => exact Outcome.withoutLog_withNotices invalidInput.join_remarks
  | some handled =>
      exact Outcome.withoutLog_withNotices (action.join_flatMap_notices wanted hidden handled)

/-- Unless more of the log is wished for, there is none of it. -/
theorem notices_of_no_wish (expression : String) :
    action.notices (fun event => event.verbosity ≤ 0) hidden expression =
      (action.perform expression hidden).remarks := by
  have unwanted : ∀ event : Event, ¬ event.verbosity ≤ 0 := by
    intro event
    cases event with
    | parsing input => exact Nat.not_succ_le_zero 1
    | rejected input error => exact Nat.not_succ_le_zero 0
  simp [notices, unwanted]

end Action

/-- The outcomes of runs put together, with the lines of the log. -/
def LoggedOutcome.sequence (runs : List LoggedOutcome) : LoggedOutcome :=
  ⟨if ∃ run ∈ runs, run.code = 1 then 1 else 0, String.join (runs.map LoggedOutcome.stdout),
    runs.flatMap LoggedOutcome.stderr⟩

/-- Runs put together succeed or fail, and nothing else. -/
theorem LoggedOutcome.sequence_code (runs : List LoggedOutcome) :
    (sequence runs).code = 0 ∨ (sequence runs).code = 1 := by
  by_cases failed : ∃ run ∈ runs, run.code = 1
  · right
    exact if_pos failed
  · left
    exact if_neg failed

/-- Expressions are handled one after the other, with the log as without it. -/
theorem Action.withNotices_performAll (action : Action) (wanted : Event → Bool)
    (hidden : Char → Bool) (expressions : List String) :
    (action.performAll expressions hidden).withNotices
        (expressions.flatMap (action.notices wanted hidden)) =
      .sequence (expressions.map (action.performLogged wanted hidden)) := by
  rw [performAll_eq_sequence]
  simp [Outcome.withNotices, LoggedOutcome.sequence, CommandLine.sequence, performLogged,
    List.flatMap_map, Function.comp_def]

/-- What a run with these arguments leaves behind with the lines of the log, if they ask for an
action. -/
def loggedRun? (wanted : Event → Bool) (hidden : Char → Bool) (arguments : List String)
    (stdin : ByteArray) : Option LoggedOutcome :=
  match Request.ofArguments arguments with
  | .run action expressions => some (action.loggedOutcome wanted hidden expressions stdin)
  | .help | .usage => none

namespace Request

/-- The arguments without the wishes for more of the log, up to the double dash. -/
def withoutWishes : List String → List String
  | [] => []
  | argument :: rest =>
      match Argument.ofString argument with
      | .verbose _ => withoutWishes rest
      | .separator => argument :: rest
      | _ => argument :: withoutWishes rest

/-- Behind a command it does not matter how much of the log is wished for. -/
theorem ofOptions_withoutWishes (action : Action) (arguments : List String) :
    ofOptions action (withoutWishes arguments) = ofOptions action arguments := by
  induction arguments generalizing action with
  | nil => rfl
  | cons argument rest induction =>
      rw [withoutWishes]
      cases read : Argument.ofString argument <;> simp [ofOptions, read, induction]

/-- A command that asks for help runs nothing. -/
theorem ofHelp_ne_run (arguments : List String) (action : Action) (expressions : List String) :
    ofHelp arguments ≠ .run action expressions := by
  rcases arguments with _ | ⟨command, _ | ⟨next, rest⟩⟩
  · simp [ofHelp]
  · rw [ofHelp]
    split <;> simp
  · simp [ofHelp]

/-- What is requested does not depend on how much of the log is wished for. -/
theorem ofArguments_withoutWishes {arguments : List String} {action : Action}
    {expressions : List String} (asked : ofArguments arguments = .run action expressions) :
    ofArguments (withoutWishes arguments) = .run action expressions := by
  induction arguments with
  | nil => exact asked
  | cons argument rest induction =>
      rw [withoutWishes]
      cases read : Argument.ofString argument with
      | verbose count => exact induction (by simpa [ofArguments, read] using asked)
      | value =>
          simp only [ofArguments, read, ofCommand] at asked ⊢
          cases command : Action.ofCommand? argument with
          | some action' => simpa [command, ofOptions_withoutWishes] using asked
          | none =>
              rw [command] at asked
              by_cases help : argument = "help"
              · exact absurd (by simpa [help] using asked) (ofHelp_ne_run rest action expressions)
              · simp [help] at asked
      | separator | sourceMap | help | unknown => simp [ofArguments, read] at asked

end Request

/-- A run with some of the log leaves behind what it leaves behind without wishes for it, but for
the lines of the log. -/
theorem withoutLog_loggedRun? {arguments : List String} {action : Action}
    {expressions : List String}
    (asked : Request.ofArguments arguments = .run action expressions) (wanted : Event → Bool)
    (hidden : Char → Bool) (stdin : ByteArray) :
    (loggedRun? wanted hidden arguments stdin).map LoggedOutcome.withoutLog =
      ran? (Request.withoutWishes arguments) stdin hidden := by
  rw [loggedRun?, asked, ran?, Request.ofArguments_withoutWishes asked, Option.map_some,
    Action.withoutLog_loggedOutcome]

/-! ## Lines that are not empty -/

/-- A text without the white space on either side. -/
def trimmed (text : List Char) : List Char :=
  (text.dropWhile isWhiteSpace).rdropWhile isWhiteSpace

/-- A text is empty if nothing is left of it without the white space on either side. -/
theorem isEmptyLine_iff_trimmed (line : String) :
    isEmptyLine line = true ↔ trimmed line.toList = [] := by
  rw [isEmptyLine, List.all_eq_true, ← List.dropWhile_eq_nil_iff, trimmed]
  constructor
  · intro empty
    rw [empty]
    rfl
  · intro empty
    have white := List.rdropWhile_eq_nil_iff.mp empty
    cases left : line.toList.dropWhile isWhiteSpace with
    | nil => rfl
    | cons c rest =>
        -- What is left begins with no white space, and yet all of it is.
        have shown := List.head?_dropWhile_not isWhiteSpace line.toList
        rw [left] at shown white
        have hidden : isWhiteSpace c = true := white c List.mem_cons_self
        simp [hidden] at shown

/-- The expressions on the lines of a text are those lines that are not empty when trimmed. -/
theorem inputExpressions_eq_filter_trimmed (input : String) :
    inputExpressions input = (Lines.ofText input).filter (trimmed ·.toList ≠ []) := by
  rw [inputExpressions]
  congr 1
  funext line
  rw [Bool.eq_iff_iff, Bool.not_eq_true', ← Bool.not_eq_true, isEmptyLine_iff_trimmed,
    decide_eq_true_iff]

/-! ## Input that is not UTF-8 -/

/-- Standard input is handled as a whole or not at all. Let arguments ask for an action and give no
expression, whatever of the log is wanted and whichever characters are hidden. Bytes are UTF-8 if
all their lines are. If one line is not, whichever it is, nothing is done with any of them, and that
is all that is told. Otherwise the run is the sequence of what is done with the lines that are not
empty when trimmed, each as it is and in its place, and it succeeds or fails as such. -/
theorem input_is_handled_whole {arguments : List String} {action : Action}
    (asked : Request.ofArguments arguments = .run action []) (stdin : ByteArray)
    (wanted : Event → Bool) (hidden : Char → Bool) :
    (stdin.IsValidUTF8 ↔
      ∀ line ∈ Lines.withEnds feedByte stdin.data.toList, line.toByteArray.IsValidUTF8) ∧
    (¬ stdin.IsValidUTF8 → loggedRun? wanted hidden arguments stdin =
      some ⟨2, "", [.remark "stdin: stream did not contain valid UTF-8\n"]⟩) ∧
    ∀ valid : stdin.IsValidUTF8, ∃ run, loggedRun? wanted hidden arguments stdin = some run ∧
      (run.code = 0 ∨ run.code = 1) ∧
      run = .sequence (((Lines.ofText (String.fromUTF8 stdin valid)).filter
        (trimmed ·.toList ≠ [])).map (action.performLogged wanted hidden)) := by
  have ran : loggedRun? wanted hidden arguments stdin =
      some (action.loggedOutcome wanted hidden [] stdin) := by rw [loggedRun?, asked]
  refine ⟨isValidUTF8_iff_forall_line stdin, fun invalid => ?_, fun valid => ?_⟩
  · have unread : String.fromUTF8? stdin = none := dif_neg invalid
    rw [ran, Action.loggedOutcome, handled?_nil, unread]
    rfl
  · have read : String.fromUTF8? stdin = some (String.fromUTF8 stdin valid) := dif_pos valid
    have run : action.loggedOutcome wanted hidden [] stdin =
        .sequence (((Lines.ofText (String.fromUTF8 stdin valid)).filter
          (trimmed ·.toList ≠ [])).map (action.performLogged wanted hidden)) := by
      rw [Action.loggedOutcome, handled?_nil, read, Option.map_some,
        inputExpressions_eq_filter_trimmed]
      exact action.withNotices_performAll wanted hidden _
    refine ⟨_, ran, ?_, run⟩
    rw [run]
    exact LoggedOutcome.sequence_code _

/-- With all of the log, a line ends in the middle of a character behind a line that could be
formatted. Without that character both lines are handled, the second one behind a line of a no-break
space, and each is told to the log before what is said about it. -/
theorem input_is_handled_whole_behind_cut_character :
    let wanted (event : Event) : Bool := event.verbosity ≤ Request.verbosity ["-vv", "fmt"]
    loggedRun? wanted Quoted.isHidden ["-vv", "fmt"] ⟨#[0x31, 0x0a, 0xc3, 0x0a, 0x32, 0x0a]⟩ =
        some ⟨2, "", [.remark "stdin: stream did not contain valid UTF-8\n"]⟩ ∧
      loggedRun? wanted Quoted.isHidden ["-vv", "fmt"] "(1)\n\u00a0\r\n2 +".toUTF8 =
        some ⟨1, "1\n", [.logged (.parsing "(1)"), .logged (.parsing "2 +"),
          .logged (.rejected "2 +" "Unexpected char + at 0:2"),
          .remark "2 +: Unexpected char + at 0:2\n"]⟩ := by
  intro wanted
  have asked : Request.ofArguments ["-vv", "fmt"] = .run .format [] := by decide
  constructor
  · obtain ⟨_, invalid, _⟩ := input_is_handled_whole asked
      ⟨#[0x31, 0x0a, 0xc3, 0x0a, 0x32, 0x0a]⟩ wanted Quoted.isHidden
    exact invalid (by decide)
  · obtain ⟨_, _, valid⟩ := input_is_handled_whole asked "(1)\n\u00a0\r\n2 +".toUTF8 wanted
      Quoted.isHidden
    obtain ⟨run, ran, _, rfl⟩ := valid ⟨_, rfl⟩
    rw [ran]
    decide +kernel

end EdgeExpression.CommandLine
