import EdgeExpression.Expr.Progress
import EdgeExpression.Proofs.OpenedLevels

/-!
# Runs of a reading

Which levels of nesting are open is known to a reading in progress, so it is known which level a
lexeme opens where it stands. The limit matters to such a lexeme only, and only if it opens a level
beyond the limit: then the lexeme is refused, and otherwise the step is the same under every limit.

Everything the grammar derives is run through, with the levels of the derivation. That follows the
derivation: on each tier its lexemes take a reading from where an operand is due to where that
operand is complete, whatever frames lie around it. Behind a complete operand the frames
are those in front of it, so nothing that was closed leaves a level open.
-/
namespace EdgeExpression
namespace Progress

/-- Takes the steps of all lexemes, if every one of them belongs where it stands. -/
def feed (limit : Nat) : Progress → List Lexeme → Option Progress
  | progress, [] => some progress
  | progress, lexeme :: rest =>
      match progress.step limit lexeme with
      | .next following => feed limit following rest
      | _ => none

variable {limit : Nat}

/-- The steps go on behind a first one that is taken. -/
theorem feed_cons {progress following : Progress} {lexeme : Lexeme}
    (taken : progress.step limit lexeme = .next following) (rest : List Lexeme) :
    progress.feed limit (lexeme :: rest) = following.feed limit rest := by
  simp [feed, taken]

/-- The steps of lexemes behind each other are taken behind each other. -/
theorem feed_append (progress : Progress) (first second : List Lexeme) :
    progress.feed limit (first ++ second) =
      (progress.feed limit first).bind (feed limit · second) := by
  induction first generalizing progress with
  | nil => rfl
  | cons lexeme rest induction =>
      simp only [List.cons_append, feed]
      split
      · exact induction _
      · rfl

/-! ## The level that a lexeme opens -/

/-- The level of nesting that a lexeme opens where it stands, if it opens one. -/
def level? : Progress → Lexeme → Option Nat
  | .operand frames, .call _ | .operand frames, .openParen | .operand frames, .openBracket
  | .operand frames, .openBrace | .operand frames, .not => some (depth frames + 1)
  | .after e frames, .connective _ => some (depth (closeComparison e frames).2 + 1)
  | _, _ => none

/-- A lexeme that would open a level beyond the limit is refused. -/
theorem step_of_lt_level {progress : Progress} {lexeme : Lexeme} {level : Nat}
    (opens : progress.level? lexeme = some level) (excess : limit < level) :
    progress.step limit lexeme = .refused := by
  unfold level? at opens
  split at opens
  case h_7 => cases opens
  all_goals
    obtain rfl := Option.some.inj opens
    exact if_neg (by omega)

/-- A lexeme with its level takes a step under every limit that leaves room for the level. -/
structure Takes (progress : Progress) (entry : LeveledLexeme) (following : Progress) : Prop where
  level : progress.level? entry.1 = entry.2
  step (limit : Nat) : (∀ level ∈ entry.2, level ≤ limit) →
    progress.step limit entry.1 = .next following

/-- Lexemes with their levels take a reading from one state to another one. -/
inductive Runs : Progress → List LeveledLexeme → Progress → Prop where
  | nil (progress : Progress) : Runs progress [] progress
  | cons {progress following reached : Progress} {entry : LeveledLexeme}
      {rest : List LeveledLexeme} : Takes progress entry following →
      Runs following rest reached → Runs progress (entry :: rest) reached

variable {progress following reached : Progress} {first second entries : List LeveledLexeme}
  {entry : LeveledLexeme}

/-- A step is a run. -/
theorem Takes.runs (takes : Takes progress entry following) :
    Runs progress [entry] following := .cons takes (.nil following)

/-- A run goes on where another one has led. -/
theorem Runs.append (runs : Runs progress first following) (later : Runs following second reached) :
    Runs progress (first ++ second) reached := by
  induction runs with
  | nil => exact later
  | cons takes _ induction => exact .cons takes (induction later)

/-- A run may be stopped anywhere. -/
theorem Runs.split (runs : Runs progress (first ++ second) reached) :
    ∃ following, Runs progress first following ∧ Runs following second reached := by
  induction first generalizing progress with
  | nil => exact ⟨progress, .nil progress, runs⟩
  | cons entry first induction =>
      cases runs with
      | cons takes later =>
          obtain ⟨following, front, behind⟩ := induction later
          exact ⟨following, .cons takes front, behind⟩

/-- Under a limit that leaves room for all levels the lexemes take their steps. -/
theorem Runs.feed (runs : Runs progress entries reached) (within : LevelsWithin limit entries) :
    progress.feed limit (entries.map Prod.fst) = some reached := by
  induction runs with
  | nil => rfl
  | cons takes _ induction =>
      obtain ⟨room, later⟩ := levelsWithin_cons.mp within
      rw [List.map_cons, feed_cons (takes.step limit room), induction later]

/-- The lexemes decide on the levels that they open, and on where they lead. -/
theorem Runs.unique {others : List LeveledLexeme} {other : Progress}
    (runs : Runs progress entries reached) (also : Runs progress others other)
    (same : entries.map Prod.fst = others.map Prod.fst) : entries = others ∧ reached = other := by
  induction runs generalizing others with
  | nil =>
      obtain rfl : others = [] := by simpa using same.symm
      cases also
      exact ⟨rfl, rfl⟩
  | @cons progress following reached entry rest takes _ induction =>
      cases also with
      | nil => cases same
      | @cons _ following' _ entry' rest' takes' later' =>
          obtain ⟨lexeme, behind⟩ := List.cons.inj same
          obtain rfl : entry = entry' :=
            Prod.ext lexeme (by rw [← takes.level, ← takes'.level, lexeme])
          obtain rfl : following = following' := by
            have room : ∀ level ∈ entry.2, level ≤ entry.2.getD 0 := by
              rintro level opened
              simp [Option.mem_def.mp opened]
            have first := takes.step (entry.2.getD 0) room
            exact Verdict.next.inj (first.symm.trans (takes'.step _ room))
          obtain ⟨rfl, rfl⟩ := induction later' behind
          exact ⟨rfl, rfl⟩

/-! ## Everything derived is run through -/

/-- The frames on which an operand alone completes nothing. -/
def Fresh : List Frame → Prop
  | .not :: _ | .comparison _ _ :: _ => False
  | _ => True

/-- On fresh frames an operand completes nothing. -/
theorem complete_of_fresh {frames : List Frame} (fresh : Fresh frames) (e : Expr) :
    complete e frames = .after e frames := by
  unfold complete
  split
  · exact fresh.elim
  · rfl

/-- On fresh frames there is no comparison to complete. -/
theorem closeComparison_of_fresh {frames : List Frame} (fresh : Fresh frames) (e : Expr) :
    closeComparison e frames = (e, frames) := by
  unfold closeComparison
  split
  · exact fresh.elim
  · rfl

/-- Every frame other than that of a comparison is one level of nesting. -/
theorem depth_cons_of_nests {frame : Frame} (nests : frame.nests = true) (frames : List Frame) :
    depth (frame :: frames) = depth frames + 1 :=
  List.countP_cons_of_pos nests

/-- The frame of a comparison is no level of nesting. -/
theorem depth_comparison (left : Expr) (operator : Comparison) (frames : List Frame) :
    depth (.comparison left operator :: frames) = depth frames :=
  List.countP_cons_of_neg Bool.false_ne_true

/-- A level within the limit is opened. -/
theorem nest_of_lt {frames : List Frame} (room : depth frames + 1 ≤ limit) (inner : Progress) :
    nest limit frames inner = .next inner :=
  if_pos room

/-- A numeral that denotes a number is taken. -/
theorem numeral_of_denotes {text : String} {v : Int64} (denotes : Decimal.Denotes text v)
    (use : Int64 → Progress) : numeral text use = .next (use v) := by
  rw [numeral, (Decimal.toInt64?_eq_some_iff text v).mpr denotes]

/-- On fresh frames a comparison may follow an operand. -/
theorem step_comparison_of_fresh {frames : List Frame} (fresh : Fresh frames) (e : Expr)
    (operator : Comparison) :
    (after e frames).step limit (.comparison operator) =
      .next (.operand (.comparison e operator :: frames)) := by
  simp only [step, endOperand]
  split
  · exact fresh.elim
  · rfl

/-- A lexeme that only opens a level takes its step if there is room for the level. -/
theorem takes_of_nest {lexeme : Lexeme} {frames : List Frame}
    (level : progress.level? lexeme = some (depth frames + 1))
    (step : ∀ limit, progress.step limit lexeme = nest limit frames following) :
    Takes progress (lexeme, some (depth frames + 1)) following where
  level := level
  step limit room := (step limit).trans (nest_of_lt (room _ rfl) following)

/-- How far the lexemes of an operand on a tier take a reading. Unary operands complete
the negations in front of them. The looser tiers need frames that are fresh; they leave
a last operand that is still to be joined with its comparison or its chain. -/
def RunsAs (frames : List Frame) (entries : List LeveledLexeme) (e : Expr) : Tier → Prop
  | .logical => Fresh frames → ∃ last inner,
      Runs (.operand frames) entries (.after last inner) ∧
        closeOperators last inner = closeChain e frames
  | .comparison => Fresh frames → ∃ last inner,
      Runs (.operand frames) entries (.after last inner) ∧
        closeComparison last inner = (e, frames)
  | .unary | .primary => Runs (.operand frames) entries (complete e frames)

/-- The two kinds of lists that consist of expressions alone. -/
inductive Listing where
  | call (callee : String)
  | array

namespace Listing

def opening : Listing → Lexeme
  | call callee => .call callee
  | array => .openBracket

def closing : Listing → Lexeme
  | call _ => .closeParen
  | array => .closeBracket

def frame : Listing → List Expr → Frame
  | call callee => .call callee
  | array => .array

def make : Listing → List Expr → Expr
  | call callee => .call callee
  | array => .array

end Listing

/-- Behind a complete part of a list, the closing lexeme completes the list. -/
theorem step_closing (listing : Listing) {last e : Expr} {inner outer : List Frame}
    {done : List Expr} (closed : closeOperators last inner = (e, listing.frame done :: outer)) :
    (after last inner).step limit listing.closing =
      .next (complete (listing.make (e :: done).reverse) outer) := by
  cases listing <;> simp [step, Listing.closing, endOperand, closed, Listing.frame, endPart,
    Listing.make]

/-- Behind a complete part of a list, a comma has the next part begin. -/
theorem step_comma (listing : Listing) {last e : Expr} {inner outer : List Frame}
    {done : List Expr} (closed : closeOperators last inner = (e, listing.frame done :: outer)) :
    (after last inner).step limit .comma =
      .next (.operand (listing.frame (e :: done) :: outer)) := by
  cases listing <;> simp [step, endOperand, closed, Listing.frame, endPart]

/-- A part of a list is run through up to where a comma or the closing lexeme completes it. -/
theorem RunsAs.part {listing : Listing} {outer : List Frame} {done : List Expr} {e : Expr}
    (run : RunsAs (listing.frame done :: outer) entries e .logical) : ∃ last inner,
      Runs (.operand (listing.frame done :: outer)) entries (.after last inner) ∧
        closeOperators last inner = (e, listing.frame done :: outer) := by
  have fresh : Fresh (listing.frame done :: outer) := by cases listing <;> trivial
  obtain ⟨last, inner, runs, closed⟩ := run fresh
  refine ⟨last, inner, runs, ?_⟩
  rw [closed]
  cases listing <;> rfl

/-- Any number of parts of a list are run through, each with its comma. Behind them the list
is open as it was in front of them. -/
theorem runs_siblings (listing : Listing) (outer : List Frame)
    (parts : List (List LeveledLexeme × Expr)) (done : List Expr)
    (run : ∀ part ∈ parts, ∀ done, RunsAs (listing.frame done :: outer) part.1 part.2 .logical) :
    Runs (.operand (listing.frame done :: outer))
      ((parts.map Prod.fst).flatMap (· ++ [(.comma, none)]))
      (.operand (listing.frame ((parts.map Prod.snd).reverse ++ done) :: outer)) := by
  induction parts generalizing done with
  | nil => exact .nil _
  | cons part rest induction =>
      obtain ⟨own, others⟩ := List.forall_mem_cons.mp run
      obtain ⟨last, inner, runs, closed⟩ := (own done).part
      have comma : Takes (.after last inner) (.comma, none)
          (.operand (listing.frame (part.2 :: done) :: outer)) :=
        ⟨rfl, fun _ _ => step_comma listing closed⟩
      simpa using (runs.append comma.runs).append (induction (part.2 :: done) others)

/-- An entry of an object is run through up to where a comma or the closing brace completes it. -/
theorem runs_entry {outer : List Frame} {done : List (String × Expr)}
    {entry : String × List LeveledLexeme × Expr}
    (run : RunsAs (.object done entry.1 :: outer) entry.2.1 entry.2.2 .logical) : ∃ last inner,
      Runs (.entry done outer) (leveledEntryPart entry) (.after last inner) ∧
        closeOperators last inner = (entry.2.2, .object done entry.1 :: outer) := by
  obtain ⟨last, inner, runs, closed⟩ := run trivial
  have key : Takes (.entry done outer) (.literal entry.1, none)
      (.colon done entry.1 outer) := ⟨rfl, fun _ _ => rfl⟩
  have colon : Takes (.colon done entry.1 outer) (.colon, none)
      (.operand (.object done entry.1 :: outer)) := ⟨rfl, fun _ _ => rfl⟩
  exact ⟨last, inner, .cons key (.cons colon runs), closed⟩

/-- Any number of entries of an object are run through, each with its comma. -/
theorem runs_entries (outer : List Frame) (entries : List (String × List LeveledLexeme × Expr))
    (done : List (String × Expr))
    (run : ∀ entry ∈ entries, ∀ done,
      RunsAs (.object done entry.1 :: outer) entry.2.1 entry.2.2 .logical) :
    Runs (.entry done outer) ((entries.map leveledEntryPart).flatMap (· ++ [(.comma, none)]))
      (.entry ((entries.map fun entry => (entry.1, entry.2.2)).reverse ++ done) outer) := by
  induction entries generalizing done with
  | nil => exact .nil _
  | cons entry rest induction =>
      obtain ⟨own, others⟩ := List.forall_mem_cons.mp run
      obtain ⟨last, inner, runs, closed⟩ := runs_entry (own done)
      have comma : Takes (.after last inner) (.comma, none)
          (.entry ((entry.1, entry.2.2) :: done) outer) :=
        ⟨rfl, fun _ _ => by simp [step, endOperand, closed, endPart]⟩
      simpa using (runs.append comma.runs).append (induction _ others)

/-- A list is run through from its opening to its closing lexeme, if its parts are. -/
theorem runs_listing (listing : Listing) (frames : List Frame)
    (parts : List (List LeveledLexeme × Expr))
    (run : ∀ part ∈ parts, ∀ inner, depth inner = depth frames + 1 →
      RunsAs inner part.1 part.2 .logical) :
    Runs (.operand frames)
      ((listing.opening, some (depth frames + 1)) :: separatedLeveled (parts.map Prod.fst) ++
        [(listing.closing, none)])
      (complete (listing.make (parts.map Prod.snd)) frames) := by
  have opened : Takes (.operand frames) (listing.opening, some (depth frames + 1))
      (.operand (listing.frame [] :: frames)) :=
    takes_of_nest (by cases listing <;> rfl) fun _ => by cases listing <;> rfl
  refine .cons opened ?_
  have inside (done : List Expr) : depth (listing.frame done :: frames) = depth frames + 1 :=
    depth_cons_of_nests (by cases listing <;> rfl) frames
  rcases List.eq_nil_or_concat' parts with rfl | ⟨parts, last, rfl⟩
  · have closing : Takes (.operand (listing.frame [] :: frames)) (listing.closing, none)
        (complete (listing.make []) frames) :=
      ⟨by cases listing <;> rfl, fun _ _ => by cases listing <;> rfl⟩
    exact closing.runs
  · obtain ⟨others, own⟩ := List.forall_mem_append.mp run
    have siblings := runs_siblings listing frames parts [] fun part member done =>
      others part member _ (inside done)
    obtain ⟨operand, inner, runs, closed⟩ :=
      RunsAs.part (List.forall_mem_singleton.mp own _ (inside ((parts.map Prod.snd).reverse ++ [])))
    have closing : Takes (.after operand inner) (listing.closing, none)
        (complete (listing.make ((parts ++ [last]).map Prod.snd)) frames) :=
      ⟨by cases listing <;> rfl, fun _ _ => by simpa using step_closing listing closed⟩
    simpa [separatedLeveled_concat] using siblings.append (runs.append closing.runs)

/-- The entries of an object are run through one after the other if their values are. -/
theorem runs_object (frames : List Frame) (entries : List (String × List LeveledLexeme × Expr))
    (run : ∀ entry ∈ entries, ∀ inner, depth inner = depth frames + 1 →
      RunsAs inner entry.2.1 entry.2.2 .logical) :
    Runs (.operand frames)
      ((.openBrace, some (depth frames + 1)) ::
        separatedLeveled (entries.map leveledEntryPart) ++ [(.closeBrace, none)])
      (complete (.object (entries.map fun entry => (entry.1, entry.2.2))) frames) := by
  have opened : Takes (.operand frames) (.openBrace, some (depth frames + 1))
      (.entry [] frames) := takes_of_nest rfl fun _ => rfl
  refine .cons opened ?_
  have inside (done : List (String × Expr)) (key : String) :
      depth (.object done key :: frames) = depth frames + 1 := depth_cons_of_nests rfl frames
  rcases List.eq_nil_or_concat' entries with rfl | ⟨entries, last, rfl⟩
  · have closing : Takes (.entry [] frames) (.closeBrace, none)
        (complete (.object []) frames) := ⟨rfl, fun _ _ => rfl⟩
    exact closing.runs
  · obtain ⟨others, own⟩ := List.forall_mem_append.mp run
    have siblings := runs_entries frames entries [] fun entry member done =>
      others entry member _ (inside done entry.1)
    have reading := List.forall_mem_singleton.mp own _ (inside
      ((entries.map fun entry => (entry.1, entry.2.2)).reverse ++ []) last.1)
    obtain ⟨operand, inner, runs, closed⟩ := runs_entry reading
    have closing : Takes (.after operand inner) (.closeBrace, none)
        (complete (.object ((entries ++ [last]).map fun entry => (entry.1, entry.2.2))) frames) :=
      ⟨rfl, fun _ _ => by simp [step, endOperand, closed, endPart]⟩
    simpa [separatedLeveled_concat] using siblings.append (runs.append closing.runs)

/-- A member is run through if its key is read. -/
theorem runs_member {owner : String} {key : Lexeme} {member : Expr} (frames : List Frame)
    (read : ∀ limit, (memberKey owner frames).step limit key =
      .next (.memberBrace member frames)) :
    Runs (.operand frames)
      [(.member owner, none), (key, none), (.closeBrace, none), (.closeParen, none)]
      (complete member frames) := by
  have opened : Takes (.operand frames) (.member owner, none) (.memberKey owner frames) :=
    ⟨rfl, fun _ _ => rfl⟩
  have named : Takes (.memberKey owner frames) (key, none) (.memberBrace member frames) :=
    ⟨rfl, fun _ _ => read _⟩
  have brace : Takes (.memberBrace member frames) (.closeBrace, none)
      (.memberParen member frames) := ⟨rfl, fun _ _ => rfl⟩
  have paren : Takes (.memberParen member frames) (.closeParen, none) (complete member frames) :=
    ⟨rfl, fun _ _ => rfl⟩
  exact .cons opened (.cons named (.cons brace paren.runs))

/-- Whatever the grammar derives is run through, on any frames with as many levels of nesting, and
it opens the levels of the derivation. Proof: by induction on the derivation; each rule is one or
two steps around the runs of its parts. -/
theorem runs_of_leveled {tier : Tier} {d : Nat} {e : Expr} (leveled : Leveled tier d entries e)
    (frames : List Frame) (level : depth frames = d) : RunsAs frames entries e tier := by
  induction leveled generalizing frames with
  | ofComparison _ induction =>
      intro fresh
      obtain ⟨last, inner, runs, closed⟩ := induction frames level fresh
      exact ⟨last, inner, runs, by rw [closeOperators, closed]⟩
  | @logical d ls rs left right operator _ _ leftRuns rightRuns =>
      subst level
      intro fresh
      obtain ⟨last, inner, runs, closed⟩ := leftRuns frames rfl fresh
      obtain ⟨last', inner', runs', closed'⟩ := rightRuns (.logical left operator :: frames)
        (depth_cons_of_nests rfl frames) trivial
      have joined : Takes (.after last inner) (.connective operator, some (depth frames + 1))
          (.operand (.logical left operator :: frames)) :=
        takes_of_nest (by simp [level?, closed]) fun _ => by simp [step, endOperand, closed]
      exact ⟨last', inner', runs.append (.cons joined runs'), closed'⟩
  | @ofUnary d ls e _ induction =>
      intro fresh
      refine ⟨e, frames, ?_, closeComparison_of_fresh fresh e⟩
      rw [← complete_of_fresh fresh e]
      exact induction frames level
  | @comparison d ls rs left right operator _ _ leftRuns rightRuns =>
      subst level
      intro fresh
      have runs : Runs _ _ (complete left frames) := leftRuns frames rfl
      have runs' : Runs _ _ (complete right (.comparison left operator :: frames)) :=
        rightRuns (.comparison left operator :: frames) (depth_comparison _ _ frames)
      rw [complete_of_fresh fresh] at runs
      have joined : Takes (.after left frames) (.comparison operator, none)
          (.operand (.comparison left operator :: frames)) :=
        ⟨rfl, fun _ _ => step_comparison_of_fresh fresh left operator⟩
      exact ⟨right, .comparison left operator :: frames, runs.append (.cons joined runs'), rfl⟩
  | not _ induction =>
      subst level
      have runs : Runs _ _ (complete _ (.not :: frames)) :=
        induction (.not :: frames) (depth_cons_of_nests rfl frames)
      have opened : Takes (.operand frames) (.not, some (depth frames + 1))
          (.operand (.not :: frames)) := takes_of_nest rfl fun _ => rfl
      exact .cons opened runs
  | ofPrimary _ induction => exact induction frames level
  | @group d ls e _ induction =>
      subst level
      obtain ⟨last, inner, runs, closed⟩ := induction (.group :: frames)
        (depth_cons_of_nests rfl frames) trivial
      have opened : Takes (.operand frames) (.openParen, some (depth frames + 1))
          (.operand (.group :: frames)) := takes_of_nest rfl fun _ => rfl
      have closing : Takes (.after last inner) (.closeParen, none) (complete e frames) :=
        ⟨rfl, fun _ _ => by simp [step, endOperand, closed, closeChain, endPart]⟩
      exact .cons opened (runs.append closing.runs)
  | @variableName d name =>
      have taken : Takes (.operand frames) (.variable name, none)
          (complete (.variable name) frames) := ⟨rfl, fun _ _ => rfl⟩
      exact taken.runs
  | memberName => exact runs_member frames fun _ => rfl
  | memberIndex denotes => exact runs_member frames fun _ => numeral_of_denotes denotes _
  | @call d callee parts _ induction =>
      subst level
      exact runs_listing (.call callee) frames parts induction
  | @array d parts _ induction =>
      subst level
      exact runs_listing .array frames parts induction
  | @object d entries _ induction =>
      subst level
      exact runs_object frames entries induction
  | @text d value =>
      have taken : Takes (.operand frames) (.literal value, none)
          (complete (.text value) frames) := ⟨rfl, fun _ _ => rfl⟩
      exact taken.runs
  | @number d text v denotes =>
      have taken : Takes (.operand frames) (.number text, none)
          (complete (.number v) frames) := ⟨rfl, fun _ _ => numeral_of_denotes denotes _⟩
      exact taken.runs

end Progress
end EdgeExpression
