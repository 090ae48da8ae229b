import EdgeExpression.Proofs.SpacedText

/-!
# Completing a reading

Wherever a reading has come to, some lexemes complete it: an operand if one is due, and
then the closing lexeme of everything that was begun, the innermost first. None of them
opens a level of nesting, so this is possible at the limit of nesting as well.

It rests on how frames stand upon each other. An operator completes what stands in front of
it, so its frame stands on one that waits for more than an operand. If a comparison stood
on a negation, the operand behind it would leave the negation open for ever.
-/
namespace EdgeExpression
namespace Progress

variable {limit : Nat} {frames : List Frame} {e : Expr}

/-! ## Frames upon frames -/

/-- The frames of operators stand on fresh frames. -/
def Founded : List Frame → Prop
  | [] => True
  | .comparison _ _ :: outer | .logical _ _ :: outer => Fresh outer ∧ Founded outer
  | _ :: outer => Founded outer

/-- The innermost frame is no negation. -/
def Settled (frames : List Frame) : Prop := ∀ outer, frames = .not :: outer → False

/-- The frames of a reading are founded, and behind an operand no negation is left open. -/
def Sound : Progress → Prop
  | .after _ frames => Founded frames ∧ Settled frames
  | .operand frames | .entry _ frames | .colon _ _ frames | .memberKey _ frames
  | .memberBrace _ frames | .memberParen _ frames => Founded frames

/-- What a frame stands on is founded if the frame is. -/
theorem Founded.tail {frame : Frame} {outer : List Frame} (founded : Founded (frame :: outer)) :
    Founded outer := by
  cases frame with
  | comparison | logical => exact founded.2
  | _ => exact founded

/-- If the innermost frame is neither a negation nor a comparison, an operand completes nothing. -/
theorem Settled.fresh (settled : Settled frames)
    (other : ∀ left operator outer, frames = .comparison left operator :: outer → False) :
    Fresh frames := by
  cases frames with
  | nil => trivial
  | cons frame outer =>
      cases frame with
      | not => exact settled outer rfl
      | comparison left operator => exact other left operator outer rfl
      | _ => trivial

/-- Completing an operand keeps the frames founded and leaves no negation open. -/
theorem sound_complete (founded : Founded frames) (e : Expr) : (complete e frames).Sound := by
  fun_induction complete e frames with
  | case1 e frames induction => exact induction founded
  | case2 e frames settled => exact ⟨founded, settled⟩

/-- Completing a comparison leaves founded frames, on which an operand completes nothing. -/
theorem closeComparison_founded (founded : Founded frames) (settled : Settled frames) (e : Expr) :
    Founded (closeComparison e frames).2 ∧ Fresh (closeComparison e frames).2 := by
  unfold closeComparison
  split
  · next left operator outer => exact founded.symm
  · next other => exact ⟨founded, settled.fresh other⟩

/-- Completing a chain of connectives leaves founded frames, on which an operand completes nothing.
-/
theorem closeChain_founded (founded : Founded frames) (fresh : Fresh frames) (e : Expr) :
    Founded (closeChain e frames).2 ∧ Fresh (closeChain e frames).2 := by
  fun_induction closeChain e frames with
  | case1 right left operator outer induction => exact induction founded.2 founded.1
  | case2 => exact ⟨founded, fresh⟩

/-- Completing all operators leaves founded frames. -/
theorem closeOperators_founded (founded : Founded frames) (settled : Settled frames) (e : Expr) :
    Founded (closeOperators e frames).2 := by
  obtain ⟨inner, fresh⟩ := closeComparison_founded founded settled e
  exact (closeChain_founded inner fresh _).1

/-! ## Steps keep the frames founded -/

/-- Where an operand is due, a step keeps the frames founded. -/
theorem sound_beginOperand {lexeme : Lexeme} {following : Progress} (founded : Founded frames)
    (taken : beginOperand limit frames lexeme = .next following) : following.Sound := by
  unfold beginOperand at taken
  split at taken
  case h_1 | h_3 =>
    obtain rfl := Verdict.next.inj taken
    exact sound_complete founded _
  case h_2 =>
    obtain ⟨v, _, rfl⟩ := of_numeral_eq_next taken
    exact sound_complete founded _
  case h_4 =>
    obtain rfl := Verdict.next.inj taken
    exact founded
  case h_5 | h_6 | h_7 | h_8 | h_9 =>
    obtain ⟨_, rfl⟩ := of_nest_eq_next taken
    exact founded
  case h_10 | h_11 =>
    split at taken
    · obtain rfl := Verdict.next.inj taken
      exact sound_complete founded.tail _
    · cases taken
  case h_12 => cases taken

/-- The end of a part keeps the frames founded. -/
theorem sound_endPart {lexeme : Lexeme} {following : Progress} (founded : Founded frames)
    (taken : endPart lexeme e frames = .next following) : following.Sound := by
  unfold endPart at taken
  split at taken
  case h_8 => cases taken
  case h_5 | h_6 | h_7 =>
    obtain rfl := Verdict.next.inj taken
    exact founded
  all_goals
    obtain rfl := Verdict.next.inj taken
    exact sound_complete founded.tail _

/-- Behind an operand, a step keeps the frames founded. -/
theorem sound_endOperand {lexeme : Lexeme} {following : Progress} (founded : Founded frames)
    (settled : Settled frames) (taken : endOperand limit e frames lexeme = .next following) :
    following.Sound := by
  unfold endOperand at taken
  split at taken
  case h_1 operator =>
    split at taken
    · cases taken
    · next other =>
        obtain rfl := Verdict.next.inj taken
        exact ⟨settled.fresh other, founded⟩
  case h_2 operator =>
    obtain ⟨_, rfl⟩ := of_nest_eq_next taken
    exact (closeComparison_founded founded settled e).symm
  case h_3 => exact sound_endPart (closeOperators_founded founded settled e) taken

/-- One step keeps the frames founded. -/
theorem sound_step {progress following : Progress} {lexeme : Lexeme} (sound : progress.Sound)
    (taken : progress.step limit lexeme = .next following) : following.Sound := by
  unfold step at taken
  split at taken
  case h_1 => exact sound_beginOperand sound taken
  case h_2 => exact sound_endOperand sound.1 sound.2 taken
  case h_4 | h_9 =>
    obtain rfl := Verdict.next.inj taken
    exact sound_complete sound _
  case h_7 =>
    obtain ⟨v, _, rfl⟩ := of_numeral_eq_next taken
    exact sound
  case h_10 => cases taken
  all_goals
    obtain rfl := Verdict.next.inj taken
    exact sound

/-- Any number of steps keeps the frames founded. -/
theorem sound_feed {progress reached : Progress} {ls : List Lexeme} (sound : progress.Sound)
    (fed : progress.feed limit ls = some reached) : reached.Sound := by
  induction ls generalizing progress with
  | nil =>
      obtain rfl := Option.some.inj fed
      exact sound
  | cons lexeme rest induction =>
      unfold feed at fed
      split at fed
      · next taken => exact induction (sound_step sound taken) fed
      · cases fed

/-! ## Closing what is open -/

/-- The lexeme that closes what was begun, if it needs one. -/
def closer : Frame → Option Lexeme
  | .group | .call _ _ => some .closeParen
  | .array _ => some .closeBracket
  | .object _ _ => some .closeBrace
  | .not | .comparison _ _ | .logical _ _ => none

/-- The lexemes that close everything that is open, behind an operand. -/
def closing (frames : List Frame) : List Lexeme := frames.filterMap closer

/-- Three lexemes close what is open. -/
theorem closer_cases {lexeme : Lexeme} (closes : lexeme ∈ closing frames) :
    lexeme = .closeParen ∨ lexeme = .closeBracket ∨ lexeme = .closeBrace := by
  obtain ⟨frame, _, same⟩ := List.mem_filterMap.mp closes
  cases frame <;> simp_all [closer, eq_comm]

/-- To closing lexemes and to the end it does not matter which of the operators are
completed already. -/
theorem feed_closing_congr {e' : Expr} {inner outer : List Frame}
    (same : closeOperators e inner = closeOperators e' outer) (frames : List Frame) :
    ((after e inner).feed limit (closing frames)).bind finish =
      ((after e' outer).feed limit (closing frames)).bind finish := by
  cases closes : closing frames with
  | nil => simp [feed, finish, same]
  | cons lexeme rest =>
      have step_eq : (after e inner).step limit lexeme = (after e' outer).step limit lexeme := by
        rcases closer_cases (closes ▸ List.mem_cons_self) with rfl | rfl | rfl <;>
          simp only [step, endOperand, same]
      rw [feed, feed, step_eq]

/-- Behind an operand the closing lexemes of all frames complete the expression. Proof: by
induction on the frames. The frame of an operator is completed by the operand, and since
it stands on a fresh frame nothing else is. -/
theorem exists_finish_closing (founded : Founded frames) (e : Expr) :
    ∃ whole, ((complete e frames).feed limit (closing frames)).bind finish = some whole := by
  induction frames generalizing e with
  | nil => exact ⟨e, rfl⟩
  | cons frame outer induction =>
      cases frame with
      | group => exact induction founded e
      | call callee done => exact induction founded (.call callee (e :: done).reverse)
      | array done => exact induction founded (.array (e :: done).reverse)
      | object done key => exact induction founded (.object ((key, e) :: done).reverse)
      | not => exact induction founded (.not e)
      | comparison left operator =>
          obtain ⟨whole, closed⟩ := induction founded.2 (.comparison left operator e)
          rw [complete_of_fresh founded.1] at closed
          have same : closeOperators e (.comparison left operator :: outer) =
              closeOperators (.comparison left operator e) outer := by
            rw [closeOperators, closeOperators, closeComparison_of_fresh founded.1]
            rfl
          exact ⟨whole, (feed_closing_congr same outer).trans closed⟩
      | logical left operator =>
          obtain ⟨whole, closed⟩ := induction founded.2 (.logical left operator e)
          rw [complete_of_fresh founded.1] at closed
          have same : closeOperators e (.logical left operator :: outer) =
              closeOperators (.logical left operator e) outer := by
            rw [closeOperators, closeOperators, closeComparison_of_fresh founded.1]
            rfl
          exact ⟨whole, (feed_closing_congr same outer).trans closed⟩

/-- Lexemes that complete a reading. Where an operand or a key is due, an empty text is
put in its place. -/
def completion : Progress → List Lexeme
  | .operand frames => .literal "" :: closing frames
  | .after _ frames => closing frames
  | .entry _ frames => [.literal "", .colon, .literal "", .closeBrace] ++ closing frames
  | .colon _ _ frames => [.colon, .literal "", .closeBrace] ++ closing frames
  | .memberKey _ frames => [.literal "", .closeBrace, .closeParen] ++ closing frames
  | .memberBrace _ frames => [.closeBrace, .closeParen] ++ closing frames
  | .memberParen _ frames => .closeParen :: closing frames

/-- Every reading is completed by its completion, at any limit of nesting. -/
theorem exists_finish_completion {progress : Progress} (sound : progress.Sound) :
    ∃ whole, (progress.feed limit progress.completion).bind finish = some whole := by
  cases progress with
  | operand frames => exact exists_finish_closing sound (.text "")
  | after e frames =>
      have settled : complete e frames = .after e frames := by
        unfold complete
        split
        · exact (sound.2 _ rfl).elim
        · rfl
      rw [completion, ← settled]
      exact exists_finish_closing sound.1 e
  | entry done frames =>
      exact exists_finish_closing sound (.object (("", .text "") :: done).reverse)
  | colon done key frames =>
      exact exists_finish_closing sound (.object ((key, .text "") :: done).reverse)
  | memberKey owner frames => exact exists_finish_closing sound (.member owner (.name ""))
  | memberBrace member frames => exact exists_finish_closing sound member
  | memberParen member frames => exact exists_finish_closing sound member

/-- Every lexeme of a completion can be written. -/
theorem legible_completion (progress : Progress) :
    ∀ lexeme ∈ progress.completion, lexeme.Legible := by
  have closers : ∀ frames, ∀ lexeme ∈ closing frames, lexeme.Legible := by
    intro frames lexeme closes
    rcases closer_cases closes with rfl | rfl | rfl <;> trivial
  have empty : (Lexeme.literal "").Legible := isWritable_of_not_mem (by simp)
  have symbols : Lexeme.colon.Legible ∧ Lexeme.closeBrace.Legible ∧ Lexeme.closeParen.Legible :=
    ⟨trivial, trivial, trivial⟩
  cases progress with
  | operand frames => exact List.forall_mem_cons.mpr ⟨empty, closers frames⟩
  | after e frames => exact closers frames
  | memberParen member frames => exact List.forall_mem_cons.mpr ⟨trivial, closers frames⟩
  | entry _ frames | colon _ _ frames | memberKey _ frames | memberBrace _ frames =>
      exact List.forall_mem_append.mpr ⟨by simp [empty, symbols], closers frames⟩

end Progress
end EdgeExpression
