import EdgeExpression.Proofs.Reformatting

/-!
# Batches

A run on several expressions is the sequence of the runs on each of them. It does not matter
whether the expressions come as arguments or as lines of standard input, how these lines are
ended, and which empty lines stand between them.

For lines only the reading has to be shown: text in which the expressions are laid out over lines
is read back as these expressions. What is done with them is the same then, and what a failure
leaves behind is its code, which no later success takes back.

Nothing here depends on which characters are hidden in quoted text.
-/
namespace EdgeExpression

/-! ## Expressions laid out over lines -/

/-- What may stand behind a line. -/
inductive LineEnd : List Char → Prop where
  | feed : LineEnd ['\n']
  | returnFeed : LineEnd ['\r', '\n']

/-- A line of white space only. -/
def IsBlankLine (line : List Char) : Prop := '\n' ∉ line ∧ line.all isWhiteSpace = true

/-- A text has texts on its lines, in their order, with blank lines anywhere. The end of the last
line may be missing. -/
inductive LaidOut : List String → List Char → Prop where
  | nil : LaidOut [] []
  | blank {texts : List String} {line ending rest : List Char} : IsBlankLine line →
      LineEnd ending → LaidOut texts rest → LaidOut texts (line ++ ending ++ rest)
  | lastBlank {line : List Char} : IsBlankLine line → LaidOut [] line
  | line {text : String} {texts : List String} {ending rest : List Char} : LineEnd ending →
      LaidOut texts rest → LaidOut (text :: texts) (text.toList ++ ending ++ rest)
  | last {text : String} : LaidOut [text] text.toList

namespace Lines

variable {line rest : List Char}

/-- A line is cut off at the carriage return and the line feed behind it. -/
theorem split_returnFeed (whole : '\n' ∉ line) (rest : List Char) :
    split (line ++ '\r' :: '\n' :: rest) = line :: split rest := by
  have cut : split ('\r' :: '\n' :: rest) = [] :: split rest := rfl
  rw [split_append whole fun _ => by simp, cut, foldr_prepend_cons, List.append_nil]

/-- Text behind the last line's end is a line, unless there is none. -/
theorem split_last (whole : '\n' ∉ line) (present : line ≠ []) : split line = [line] := by
  have cut : split (line ++ []) = line.foldr prepend [] := split_append whole fun _ => by simp
  rw [List.append_nil] at cut
  rw [cut, foldr_prepend_nil present]

/-- A line is cut off at either end behind it. -/
theorem split_line_end {ending : List Char} (isLine : IsLine line) (ends : LineEnd ending)
    (rest : List Char) : split (line ++ ending ++ rest) = line :: split rest := by
  cases ends with
  | feed => simpa using split_line isLine rest
  | returnFeed => simpa using split_returnFeed isLine.1 rest

/-- A blank line is cut off at either end behind it, but for a carriage return that is taken for
a part of the end. -/
theorem split_blank_end {ending : List Char} (blank : IsBlankLine line) (ends : LineEnd ending)
    (rest : List Char) :
    ∃ own, IsBlankLine own ∧ split (line ++ ending ++ rest) = own :: split rest := by
  obtain ⟨whole, white⟩ := blank
  cases ends with
  | returnFeed => exact ⟨line, ⟨whole, white⟩, by simpa using split_returnFeed whole rest⟩
  | feed =>
      by_cases last : line.getLast? = some '\r'
      · obtain ⟨own, rfl⟩ := List.getLast?_eq_some_iff.mp last
        have inner : IsBlankLine own := by
          refine ⟨fun member => whole (List.mem_append_left _ member), ?_⟩
          simp only [List.all_append, Bool.and_eq_true] at white
          exact white.1
        exact ⟨own, inner, by simpa using split_returnFeed inner.1 rest⟩
      · exact ⟨line, ⟨whole, white⟩, by simpa using split_line ⟨whole, last⟩ rest⟩

end Lines

namespace CommandLine

/-- Texts that are lines and not empty are read from every text in which they are laid out. Proof:
by induction on the laying out, one line at a time. -/
theorem inputExpressions_of_laidOut {texts : List String} {text : List Char}
    (laid : LaidOut texts text)
    (lines : ∀ own ∈ texts, IsLine own.toList ∧ isEmptyLine own = false) :
    inputExpressions (String.ofList text) = texts := by
  unfold inputExpressions Lines.ofText
  rw [String.toList_ofList]
  induction laid with
  | nil => rfl
  | blank blank ends _ induction =>
      obtain ⟨own, ⟨_, white⟩, cut⟩ := Lines.split_blank_end blank ends _
      rw [cut, List.map_cons, List.filter_cons_of_neg, induction lines]
      simp [isEmptyLine, white]
  | @lastBlank line blank =>
      by_cases present : line = []
      · rw [present]
        rfl
      · rw [Lines.split_last blank.1 present]
        simp [isEmptyLine, blank.2]
  | line ends _ induction =>
      obtain ⟨⟨isLine, shown⟩, others⟩ := List.forall_mem_cons.mp lines
      rw [Lines.split_line_end isLine ends, List.map_cons, String.ofList_toList,
        List.filter_cons_of_pos (by simp [shown]), induction others]
  | @last text =>
      obtain ⟨isLine, shown⟩ := lines text List.mem_cons_self
      have present : text.toList ≠ [] := by
        intro none
        simp [isEmptyLine, none] at shown
      rw [Lines.split_last isLine.1 present]
      simp [shown]

/-! ## One run after another -/

/-- Reading an expression leaves behind success or failure if its use does. -/
theorem withExpr_code_le {expression : String} {use : Expr → Outcome}
    (bounded : ∀ e, (use e).code ≤ 1) : (withExpr expression use).code ≤ 1 := by
  unfold withExpr
  split
  · exact bounded _
  · exact Nat.le_refl 1

namespace Action

/-- One expression leaves behind success or failure, and no third code. -/
theorem perform_code_le (action : Action) (expression : String) (hidden : Char → Bool) :
    (action.perform expression hidden).code ≤ 1 := by
  cases action with
  | outline =>
      rw [perform]
      exact withExpr_code_le fun _ => Nat.zero_le 1
  | format =>
      rw [perform]
      exact withExpr_code_le fun _ => Nat.zero_le 1
  | check =>
      rw [perform]
      refine withExpr_code_le fun e => ?_
      split
      · exact Nat.zero_le 1
      · exact Nat.le_refl 1
  | tokens mapped =>
      simp only [perform]
      split
      · exact Nat.zero_le 1
      · exact Nat.le_refl 1

/-- A run on one expression is what is done with the expression. -/
theorem outcome_singleton (action : Action) (expression : String) (stdin : ByteArray)
    (hidden : Char → Bool) :
    action.outcome [expression] stdin hidden = action.perform expression hidden :=
  (action.performAll_cons expression [] hidden).trans (Outcome.append_empty _)

/-- If an expression is given, a run is on the expressions that are given. -/
theorem outcome_of_ne_nil (action : Action) {expressions : List String} (given : expressions ≠ [])
    (stdin : ByteArray) (hidden : Char → Bool) :
    action.outcome expressions stdin hidden = action.performAll expressions hidden := by
  rw [outcome, handled?_of_ne_nil given]

end Action

/-- The outcomes of runs put together: the outputs in order, and failure if one of them failed. -/
def sequence (runs : List Outcome) : Outcome :=
  ⟨if ∃ run ∈ runs, run.code = 1 then 1 else 0, String.join (runs.map Outcome.stdout),
    String.join (runs.map Outcome.stderr)⟩

/-- The worse code of two is failure if one of them is, as long as failure is the worst. -/
theorem sequence_cons {run : Outcome} (bounded : run.code ≤ 1) (runs : List Outcome) :
    sequence (run :: runs) = run.append (sequence runs) := by
  simp only [sequence, Outcome.append, List.map_cons, String.join_cons, List.mem_cons,
    exists_eq_or_imp, Outcome.mk.injEq, and_true]
  split <;> split <;> grind

/-- Handling expressions one after the other is the sequence of what is done with each. -/
theorem performAll_eq_sequence (action : Action) (expressions : List String)
    (hidden : Char → Bool) :
    action.performAll expressions hidden =
      sequence (expressions.map (action.perform · hidden)) := by
  induction expressions with
  | nil => rfl
  | cons expression rest induction =>
      rw [Action.performAll_cons, List.map_cons,
        sequence_cons (action.perform_code_le expression hidden), induction]

/-! ## Arguments -/

/-- The arguments that ask for an action. -/
def Action.arguments : Action → List String
  | .outline => ["parse"]
  | .tokens false => ["tokens"]
  | .tokens true => ["tokens", "--source-map"]
  | .format => ["fmt"]
  | .check => ["check"]

/-- What a run with these arguments leaves behind without the lines of the log, if they ask for an
action. -/
def ran? (arguments : List String) (stdin : ByteArray)
    (hidden : Char → Bool := Quoted.isHidden) : Option Outcome :=
  match Request.ofArguments arguments with
  | .run action expressions => some (action.outcome expressions stdin hidden)
  | .help | .usage => none

namespace Action

/-- Without expressions the action is run on standard input. -/
theorem ran?_arguments (action : Action) (stdin : ByteArray) (hidden : Char → Bool) :
    ran? action.arguments stdin hidden = some (action.outcome [] stdin hidden) := by
  have request : Request.ofArguments action.arguments = .run action [] := by
    rcases action with _ | (_ | _) | _ | _ <;> decide
  rw [ran?, request]

/-- Behind a double dash every argument is an expression. -/
theorem ran?_arguments_separator (action : Action) (expressions : List String)
    (stdin : ByteArray) (hidden : Char → Bool) :
    ran? (action.arguments ++ "--" :: expressions) stdin hidden =
      some (action.outcome expressions stdin hidden) := by
  have request : Request.ofArguments (action.arguments ++ "--" :: expressions) =
      .run action expressions := by
    rcases action with _ | (_ | _) | _ | _ <;> rfl
  rw [ran?, request]

end Action

/-- A batch is the sequence of its expressions, whichever way they arrive. Let there be at least
one expression, each a line that is not empty. Given as arguments behind a double dash, whatever
standard input holds, and laid out on the lines of standard input, they leave the same behind:
what the runs on each of them alone leave behind, put together. This is so whichever characters
are hidden in what is printed. -/
theorem batch_is_sequence (action : Action) (hidden : Char → Bool) {expressions : List String}
    (given : expressions ≠ [])
    (lines : ∀ own ∈ expressions, IsLine own.toList ∧ isEmptyLine own = false) :
    let whole := sequence (expressions.map (action.perform · hidden))
    (∀ own ∈ expressions, ∀ stdin,
        ran? (action.arguments ++ ["--", own]) stdin hidden = some (action.perform own hidden)) ∧
      (∀ stdin, ran? (action.arguments ++ "--" :: expressions) stdin hidden = some whole) ∧
      ∀ text : String, LaidOut expressions text.toList →
        ran? action.arguments text.toUTF8 hidden = some whole := by
  intro whole
  refine ⟨fun own _ stdin => ?_, fun stdin => ?_, fun text laid => ?_⟩
  · rw [action.ran?_arguments_separator, action.outcome_singleton]
  · rw [action.ran?_arguments_separator, action.outcome_of_ne_nil given, performAll_eq_sequence]
  · have read : inputExpressions text = expressions := by
      simpa only [String.ofList_toList] using inputExpressions_of_laidOut laid lines
    rw [action.ran?_arguments, action.outcome_of_valid (fromUTF8?_toUTF8 text), read,
      performAll_eq_sequence]

/-- The second of three expressions fails. Between the lines stands one of white space only, and
the last line has no end. -/
theorem batch_with_failure :
    let whole : Outcome := ⟨1, "1\n2\n", "1 +: Unexpected char + at 0:2\n"⟩
    (∀ stdin, ran? ["fmt", "--", "(1)", "1 +", "2"] stdin = some whole) ∧
      ran? ["fmt"] "(1)\r\n1 +\n\u00a0\r\n2".toUTF8 = some whole := by
  intro whole
  have lines : ∀ own ∈ ["(1)", "1 +", "2"], IsLine own.toList ∧ isEmptyLine own = false := by
    simp only [IsLine, List.forall_mem_cons]
    refine ⟨by decide, by decide, by decide, ?_⟩
    exact fun own absent => absurd absent List.not_mem_nil
  have shown :
      sequence (["(1)", "1 +", "2"].map (Action.format.perform · Quoted.isHidden)) = whole := by
    decide +kernel
  have blank : IsBlankLine ['\u00a0'] := ⟨by decide, by decide⟩
  have laid : LaidOut ["(1)", "1 +", "2"] "(1)\r\n1 +\n\u00a0\r\n2".toList :=
    .line .returnFeed (.line .feed (.blank blank .returnFeed .last))
  obtain ⟨_, given, read⟩ := batch_is_sequence .format Quoted.isHidden (List.cons_ne_nil _ _) lines
  rw [shown] at given read
  exact ⟨given, read _ laid⟩

end CommandLine
end EdgeExpression
