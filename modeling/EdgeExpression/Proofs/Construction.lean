import EdgeExpression.Expr.Postfix

/-!
# Construction of expressions

Every expression can be built in postfix order: its parts one after the other, and then the
expression from its parts. The steps work on the top of any stack and can all be taken, and what
lies below stays as it is. So whatever is built next finds the expression on the top.

A step that cannot be taken, or that only asks, leaves the stack as it was; and so does a run of
nothing but such steps.
-/
namespace EdgeExpression.Postfix

/-! ## Steps that change nothing -/

/-- Expressions are taken off the stack only if something is put back for them. -/
theorem replace_of_not_done {count : Nat} {make : List Expr → Expr} {stack : Stack}
    (undone : (replace count make stack).1 ≠ .done) : (replace count make stack).2 = stack := by
  by_cases enough : count ≤ stack.length
  · have done : (replace count make stack).1 = .done := by rw [replace, if_pos enough]
    exact absurd done undone
  · rw [replace, if_neg enough]

/-- Two operands stay on the stack if they are not joined. -/
theorem join_of_not_done {make : Option (Expr → Expr → Expr)} {stack : Stack}
    (undone : (join make stack).1 ≠ .done) : (join make stack).2 = stack := by
  rcases stack with _ | ⟨right, _ | ⟨left, rest⟩⟩
  · rfl
  · rfl
  · cases make with
    | none => rfl
    | some make => exact absurd rfl undone

/-- A step that is not done leaves the stack as it was. -/
theorem Step.apply_of_not_done {step : Step} {stack : Stack}
    (undone : (step.apply stack).1 ≠ .done) : (step.apply stack).2 = stack := by
  cases step with
  | leaf e => exact absurd rfl undone
  | call | array | object => exact replace_of_not_done undone
  | comparison | logical | comparisonSymbol | logicalSymbol => exact join_of_not_done undone
  | not | duplicate | discard =>
      cases stack with
      | nil => rfl
      | cons top rest => exact absurd rfl undone
  | swap =>
      rcases stack with _ | ⟨top, _ | ⟨second, rest⟩⟩
      · rfl
      · rfl
      · exact absurd rfl undone
  | equal =>
      rcases stack with _ | ⟨top, _ | ⟨second, rest⟩⟩ <;> rfl
  | parse source =>
      rw [Step.apply] at undone ⊢
      split
      · next e read =>
          rw [read] at undone
          exact absurd rfl undone
      · rfl

/-- A run in which no step is done leaves the stack as it was all the time. -/
theorem run_of_not_done {steps : List Step} {stack : Stack}
    (undone : ∀ entry ∈ run steps stack, entry.1 ≠ .done) :
    ∀ entry ∈ run steps stack, entry.2 = stack := by
  induction steps with
  | nil => exact fun _ member => absurd member List.not_mem_nil
  | cons step steps induction =>
      rw [run, List.forall_mem_cons] at undone
      have stays := Step.apply_of_not_done undone.1
      rw [stays] at undone
      rw [run, List.forall_mem_cons, stays]
      exact ⟨rfl, induction undone.2⟩

/-! ## Programs -/

mutual

/-- The steps that build an expression. -/
def program : Expr → List Step
  | .text value => [.leaf (.text value)]
  | .number value => [.leaf (.number value)]
  | .variable name => [.leaf (.variable name)]
  | .member owner key => [.leaf (.member owner key)]
  | .call callee arguments => programEach arguments ++ [.call callee arguments.length]
  | .array elements => programEach elements ++ [.array elements.length]
  | .object entries => programEntries entries ++ [.object (entries.map Prod.fst)]
  | .not operand => program operand ++ [.not]
  | .comparison left operator right => program left ++ program right ++ [.comparison operator]
  | .logical left operator right => program left ++ program right ++ [.logical operator]
termination_by structural e => e

/-- The steps that build expressions one after the other. -/
def programEach : List Expr → List Step
  | [] => []
  | e :: rest => program e ++ programEach rest
termination_by structural list => list

/-- The steps that build the values of an object one after the other. -/
def programEntries : List (String × Expr) → List Step
  | [] => []
  | (_, e) :: rest => program e ++ programEntries rest
termination_by structural list => list

end

/-- Steps build expressions if they are done on any stack, whatever steps are next, and put these
expressions on its top, the last one first. -/
def Builds (steps : List Step) (built : List Expr) : Prop :=
  ∀ next stack, ∃ taken, (∀ entry ∈ taken, entry.1 = .done) ∧
    run (steps ++ next) stack = taken ++ run next (built.reverse ++ stack)

namespace Builds

variable {steps others : List Step} {built more : List Expr}

/-- Without a step nothing is built. -/
theorem nil : Builds [] [] := fun _ _ => ⟨[], List.forall_mem_nil _, rfl⟩

/-- What is built first lies below what is built next. -/
theorem append (first : Builds steps built) (second : Builds others more) :
    Builds (steps ++ others) (built ++ more) := by
  intro next stack
  obtain ⟨taken, done, run_first⟩ := first (others ++ next) stack
  obtain ⟨later, also, run_second⟩ := second next (built.reverse ++ stack)
  refine ⟨taken ++ later, List.forall_mem_append.mpr ⟨done, also⟩, ?_⟩
  rw [List.append_assoc, run_first, run_second, List.reverse_append]
  simp only [List.append_assoc]

/-- A step that makes an expression of what has been built. -/
theorem make {step : Step} {e : Expr} (before : Builds steps built)
    (made : ∀ stack, step.apply (built.reverse ++ stack) = (.done, e :: stack)) :
    Builds (steps ++ [step]) [e] := by
  intro next stack
  obtain ⟨taken, done, run_before⟩ := before (step :: next) stack
  refine ⟨taken ++ [(.done, e :: stack)], ?_, ?_⟩
  · rw [List.forall_mem_append, List.forall_mem_singleton]
    exact ⟨done, rfl⟩
  · rw [List.append_assoc, List.singleton_append, run_before, run, made]
    simp

/-- A leaf is built from nothing. -/
theorem leaf (e : Expr) : Builds [.leaf e] [e] := nil.make fun _ => rfl

end Builds

/-- Expressions are taken off the stack in the order in which they were built. -/
theorem replace_built {count : Nat} (make : List Expr → Expr) {built : List Expr}
    (all : built.length = count) (stack : Stack) :
    replace count make (built.reverse ++ stack) = (.done, make built :: stack) := by
  have length : built.reverse.length = count := by rw [List.length_reverse, all]
  rw [replace, if_pos (by simp [length]), List.take_left' length, List.drop_left' length,
    List.reverse_reverse]

/-- Expressions are built one after the other if each of them is built. -/
theorem builds_each {list : List Expr} (each : ∀ e ∈ list, Builds (program e) [e]) :
    Builds (programEach list) list := by
  induction list with
  | nil => exact .nil
  | cons e rest induction =>
      obtain ⟨first, others⟩ := List.forall_mem_cons.mp each
      exact first.append (induction others)

/-- The values of an object are built one after the other if each of them is built. -/
theorem builds_entries {entries : List (String × Expr)}
    (each : ∀ entry ∈ entries, Builds (program entry.2) [entry.2]) :
    Builds (programEntries entries) (entries.map Prod.snd) := by
  induction entries with
  | nil => exact .nil
  | cons entry rest induction =>
      obtain ⟨first, others⟩ := List.forall_mem_cons.mp each
      exact first.append (induction others)

/-- Every expression can be built on any stack: all of its steps are done, and whatever steps are
next find the expression on the top and the stack below it. -/
theorem builds_program (e : Expr) : Builds (program e) [e] := by
  induction e using Expr.parts_induction with
  | text | number | variableName | member => exact .leaf _
  | call callee arguments induction =>
      exact (builds_each induction).make (replace_built (.call callee) rfl)
  | array elements induction => exact (builds_each induction).make (replace_built .array rfl)
  | object entries induction =>
      have same : (entries.map Prod.fst).zip (entries.map Prod.snd) = entries := by
        rw [← List.unzip_fst, ← List.unzip_snd, List.zip_unzip]
      refine (builds_entries induction).make fun stack => ?_
      rw [Step.apply, replace_built _ (by simp), same]
  | not operand induction => exact induction.make fun _ => rfl
  | comparison left operator right leftBuilt rightBuilt =>
      exact (leftBuilt.append rightBuilt).make fun _ => rfl
  | logical left operator right leftBuilt rightBuilt =>
      exact (leftBuilt.append rightBuilt).make fun _ => rfl

end EdgeExpression.Postfix
