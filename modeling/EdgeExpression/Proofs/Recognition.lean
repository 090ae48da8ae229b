import EdgeExpression.Proofs.Reading
import EdgeExpression.Proofs.Runs

/-!
# Recognizing the grammar

Reading an expression step by step recognizes exactly the grammar.

That everything the grammar derives is read follows the derivation, since the runs of a
reading do. That nothing else is read follows the steps: the frames of a reading always
account for the lexemes read so far, each frame for its own part of a derivation that is
still open.
-/
namespace EdgeExpression
namespace Progress

variable {limit : Nat}

/-- Following a reading succeeds exactly if the reading has no fault, all its lexemes
take their steps, and the expression is complete behind them. -/
theorem follow_eq_ok_iff (progress : Progress) (lexemes : List (Lexeme × Position))
    (outcome : Except LexError Position) (e : Expr) :
    progress.follow limit lexemes outcome = .ok e ↔
      (∃ ending, outcome = .ok ending) ∧
        (progress.feed limit (lexemes.map Prod.fst)).bind finish = some e := by
  induction lexemes generalizing progress with
  | nil =>
      cases outcome with
      | error error => simp [follow]
      | ok ending =>
          cases complete : progress.finish <;> simp [follow, feed, complete]
  | cons entry rest induction =>
      rcases entry with ⟨value, position⟩
      simp only [List.map_cons, follow, feed]
      cases taken : progress.step limit value with
      | next following => exact induction following
      | refused => simp
      | outOfRange =>
          dsimp only
          split <;> simp

/-! ## Everything derived is read -/

/-- How far the lexemes of an operand on a tier take a reading. Unary operands complete
the negations in front of them. The looser tiers need frames that are fresh; they leave
a last operand that is still to be joined with its comparison or its chain. -/
def ReadAs (limit : Nat) (frames : List Frame) (ls : List Lexeme) (e : Expr) : Tier → Prop
  | .logical => Fresh frames → ∃ last inner,
      feed limit (.operand frames) ls = some (.after last inner) ∧
        closeOperators last inner = closeChain e frames
  | .comparison => Fresh frames → ∃ last inner,
      feed limit (.operand frames) ls = some (.after last inner) ∧
        closeComparison last inner = (e, frames)
  | .unary | .primary => feed limit (.operand frames) ls = some (complete e frames)

/-- Whatever the grammar derives is read, on any frames with as many levels of nesting. -/
theorem read_of_derives {tier : Tier} {d : Nat} {ls : List Lexeme} {e : Expr}
    (derivation : Derives limit tier d ls e) (frames : List Frame) (level : depth frames = d) :
    ReadAs limit frames ls e tier := by
  obtain ⟨entries, rfl, within, leveled⟩ := derives_iff_leveled.mp derivation
  have run := runs_of_leveled leveled frames level
  cases tier with
  | logical | comparison =>
      intro fresh
      obtain ⟨last, inner, runs, closed⟩ := run fresh
      exact ⟨last, inner, runs.feed within, closed⟩
  | unary | primary => exact Runs.feed run within

/-! ## Everything read is derived -/

/-- The parts of a list that are complete, the last one first, each with its comma. -/
def PartsRead (limit d : Nat) (done : List Expr) (ls : List Lexeme) : Prop :=
  ∃ parts : List (List Lexeme × Expr), done = (parts.map Prod.snd).reverse ∧
    ls = (parts.map Prod.fst).flatMap (· ++ [.comma]) ∧
    ∀ part ∈ parts, Derives limit .logical d part.1 part.2

/-- The entries of an object that are complete, the last one first, each with its comma. -/
def EntriesRead (limit d : Nat) (done : List (String × Expr)) (ls : List Lexeme) : Prop :=
  ∃ entries : List (String × List Lexeme × Expr),
    done = (entries.map fun entry => (entry.1, entry.2.2)).reverse ∧
    ls = (entries.map entryPart).flatMap (· ++ [.comma]) ∧
    ∀ entry ∈ entries, Derives limit .logical d entry.2.1 entry.2.2

/-- The lexemes that a frame accounts for, given the frames around it: those of the open
rule that stand before the operand that is due. -/
def Accounts (limit : Nat) (outer : List Frame) : Frame → List Lexeme → Prop
  | .group, ls => ls = [.openParen] ∧ depth outer + 1 ≤ limit
  | .not, ls => ls = [.not] ∧ depth outer + 1 ≤ limit
  | .call callee done, ls => depth outer + 1 ≤ limit ∧
      ∃ parts, ls = .call callee :: parts ∧ PartsRead limit (depth outer + 1) done parts
  | .array done, ls => depth outer + 1 ≤ limit ∧
      ∃ parts, ls = .openBracket :: parts ∧ PartsRead limit (depth outer + 1) done parts
  | .object done key, ls => depth outer + 1 ≤ limit ∧
      ∃ entries, ls = .openBrace :: entries ++ [.literal key, .colon] ∧
        EntriesRead limit (depth outer + 1) done entries
  | .comparison left operator, ls =>
      ∃ us, ls = us ++ [.comparison operator] ∧ Derives limit .unary (depth outer) us left
  | .logical left operator, ls => depth outer + 1 ≤ limit ∧
      ∃ us, ls = us ++ [.connective operator] ∧ Derives limit .comparison (depth outer) us left

/-- The lexemes that all frames account for, from the outermost to the innermost. -/
def Opened (limit : Nat) : List Frame → List Lexeme → Prop
  | [], ls => ls = []
  | frame :: outer, ls =>
      ∃ before own, ls = before ++ own ∧ Opened limit outer before ∧ Accounts limit outer frame own

/-- A reading in progress accounts for all lexemes read so far. -/
def AccountsFor (limit : Nat) : Progress → List Lexeme → Prop
  | .operand frames, ls => Opened limit frames ls
  | .after e frames, ls => ∃ before us, ls = before ++ us ∧ Opened limit frames before ∧
      Derives limit .unary (depth frames) us e
  | .entry done frames, ls => depth frames + 1 ≤ limit ∧ ∃ before entries,
      ls = before ++ .openBrace :: entries ∧ Opened limit frames before ∧
        EntriesRead limit (depth frames + 1) done entries
  | .colon done key frames, ls => depth frames + 1 ≤ limit ∧ ∃ before entries,
      ls = before ++ .openBrace :: entries ++ [.literal key] ∧ Opened limit frames before ∧
        EntriesRead limit (depth frames + 1) done entries
  | .memberKey owner frames, ls => ∃ before, ls = before ++ [.member owner] ∧
      Opened limit frames before
  | .memberBrace member frames, ls => ∃ before us, ls = before ++ us ∧
      Opened limit frames before ∧
      Derives limit .primary (depth frames) (us ++ [.closeBrace, .closeParen]) member
  | .memberParen member frames, ls => ∃ before us, ls = before ++ us ∧
      Opened limit frames before ∧
      Derives limit .primary (depth frames) (us ++ [.closeParen]) member

/-- Completing an operand, with the negations in front of it, keeps account of it. -/
theorem complete_accounts {frames : List Frame} {before us : List Lexeme} {e : Expr}
    (opened : Opened limit frames before) (derived : Derives limit .unary (depth frames) us e) :
    AccountsFor limit (complete e frames) (before ++ us) := by
  induction frames generalizing before us e with
  | nil => exact ⟨before, us, rfl, opened, derived⟩
  | cons frame outer induction =>
      cases frame with
      | not =>
          obtain ⟨around, own, rfl, openedOuter, rfl, room⟩ := opened
          rw [depth_cons_of_nests rfl] at derived
          have negated : Derives limit .unary (depth outer) (.not :: us) (.not e) :=
            .not room derived
          simpa [complete] using induction openedOuter negated
      | _ => exact ⟨before, us, rfl, opened, derived⟩

/-- Completing a comparison. -/
theorem closeComparison_derives {frames : List Frame} {before us : List Lexeme} {e : Expr}
    (opened : Opened limit frames before) (derived : Derives limit .unary (depth frames) us e) :
    ∃ around ls, before ++ us = around ++ ls ∧
      Opened limit (closeComparison e frames).2 around ∧
      Derives limit .comparison (depth (closeComparison e frames).2) ls
        (closeComparison e frames).1 := by
  unfold closeComparison
  split
  · next left operator outer =>
      obtain ⟨around, own, rfl, openedOuter, ls, rfl, leftDerived⟩ := opened
      rw [depth_comparison] at derived
      exact ⟨around, ls ++ .comparison operator :: us, by simp, openedOuter,
        .comparison leftDerived derived⟩
  · exact ⟨before, us, rfl, opened, .ofUnary derived⟩

/-- Completing a chain, from its last condition outwards. -/
theorem closeChain_derives {frames : List Frame} {before us : List Lexeme} {e : Expr}
    (opened : Opened limit frames before) (derived : Derives limit .logical (depth frames) us e) :
    ∃ around ls, before ++ us = around ++ ls ∧ Opened limit (closeChain e frames).2 around ∧
      Derives limit .logical (depth (closeChain e frames).2) ls (closeChain e frames).1 := by
  induction frames generalizing before us e with
  | nil => exact ⟨before, us, rfl, opened, derived⟩
  | cons frame outer induction =>
      cases frame with
      | logical left operator =>
          obtain ⟨around, own, rfl, openedOuter, room, ls, rfl, leftDerived⟩ := opened
          rw [depth_cons_of_nests rfl] at derived
          have joined : Derives limit .logical (depth outer) (ls ++ .connective operator :: us)
              (.logical left operator e) := .logical leftDerived room derived
          simpa [closeChain] using induction openedOuter joined
      | _ => exact ⟨before, us, rfl, opened, derived⟩

/-- Completing everything that ends with an operand leaves an expression of the loosest
tier. -/
theorem closeOperators_derives {frames : List Frame} {before us : List Lexeme} {e : Expr}
    (opened : Opened limit frames before) (derived : Derives limit .unary (depth frames) us e) :
    ∃ around ls, before ++ us = around ++ ls ∧
      Opened limit (closeOperators e frames).2 around ∧
      Derives limit .logical (depth (closeOperators e frames).2) ls
        (closeOperators e frames).1 := by
  obtain ⟨around, ls, split, openedInner, compared⟩ := closeComparison_derives opened derived
  rw [split]
  exact closeChain_derives openedInner (.ofComparison compared)

/-- A level that is opened is within the limit. -/
theorem of_nest_eq_next {frames : List Frame} {inner following : Progress}
    (taken : nest limit frames inner = .next following) :
    depth frames + 1 ≤ limit ∧ following = inner := by
  unfold nest at taken
  split at taken
  · next room => exact ⟨room, (Verdict.next.inj taken).symm⟩
  · cases taken

/-- A numeral that is taken denotes a number. -/
theorem of_numeral_eq_next {text : String} {use : Int64 → Progress} {following : Progress}
    (taken : numeral text use = .next following) :
    ∃ v, Decimal.Denotes text v ∧ following = use v := by
  unfold numeral at taken
  split at taken
  · next v read =>
      exact ⟨v, (Decimal.toInt64?_eq_some_iff text v).mp read, (Verdict.next.inj taken).symm⟩
  · cases taken

/-- No part of a list is complete yet. -/
theorem partsRead_nil (limit d : Nat) : PartsRead limit d [] [] := ⟨[], rfl, rfl, by simp⟩

/-- No entry of an object is complete yet. -/
theorem entriesRead_nil (limit d : Nat) : EntriesRead limit d [] [] := ⟨[], rfl, rfl, by simp⟩

/-- If no part of a list is complete, no lexeme belongs to its parts. -/
theorem eq_nil_of_partsRead_nil {d : Nat} {ls : List Lexeme} (read : PartsRead limit d [] ls) :
    ls = [] := by
  obtain ⟨parts, done, rfl, _⟩ := read
  obtain rfl : parts = [] := by simpa using done
  rfl

/-- If no entry of an object is complete, no lexeme belongs to its entries. -/
theorem eq_nil_of_entriesRead_nil {d : Nat} {ls : List Lexeme}
    (read : EntriesRead limit d [] ls) : ls = [] := by
  obtain ⟨entries, done, rfl, _⟩ := read
  obtain rfl : entries = [] := by simpa using done
  rfl

/-- Where an operand is due, a step accounts for the lexeme that it takes. -/
theorem beginOperand_accounts {frames : List Frame} {before : List Lexeme} {lexeme : Lexeme}
    {following : Progress} (opened : Opened limit frames before)
    (taken : beginOperand limit frames lexeme = .next following) :
    AccountsFor limit following (before ++ [lexeme]) := by
  unfold beginOperand at taken
  split at taken
  case h_1 value =>
    obtain rfl := Verdict.next.inj taken
    exact complete_accounts opened (.ofPrimary .text)
  case h_2 text =>
    obtain ⟨v, denotes, rfl⟩ := of_numeral_eq_next taken
    exact complete_accounts opened (.ofPrimary (.number denotes))
  case h_3 name =>
    obtain rfl := Verdict.next.inj taken
    exact complete_accounts opened (.ofPrimary .variableName)
  case h_4 owner =>
    obtain rfl := Verdict.next.inj taken
    exact ⟨before, rfl, opened⟩
  case h_5 callee =>
    obtain ⟨room, rfl⟩ := of_nest_eq_next taken
    exact ⟨before, _, rfl, opened, room, [], rfl, partsRead_nil _ _⟩
  case h_6 =>
    obtain ⟨room, rfl⟩ := of_nest_eq_next taken
    exact ⟨before, _, rfl, opened, rfl, room⟩
  case h_7 =>
    obtain ⟨room, rfl⟩ := of_nest_eq_next taken
    exact ⟨before, _, rfl, opened, room, [], rfl, partsRead_nil _ _⟩
  case h_8 =>
    obtain ⟨room, rfl⟩ := of_nest_eq_next taken
    exact ⟨room, before, [], rfl, opened, entriesRead_nil _ _⟩
  case h_9 =>
    obtain ⟨room, rfl⟩ := of_nest_eq_next taken
    exact ⟨before, _, rfl, opened, rfl, room⟩
  case h_10 =>
    split at taken
    · next callee outer =>
        obtain rfl := Verdict.next.inj taken
        obtain ⟨around, own, rfl, openedOuter, room, parts, rfl, read⟩ := opened
        obtain rfl := eq_nil_of_partsRead_nil read
        have empty := complete_accounts openedOuter
          (.ofPrimary (@Derives.call limit _ callee [] room (by simp)))
        simpa using empty
    · cases taken
  case h_11 =>
    split at taken
    · next outer =>
        obtain rfl := Verdict.next.inj taken
        obtain ⟨around, own, rfl, openedOuter, room, parts, rfl, read⟩ := opened
        obtain rfl := eq_nil_of_partsRead_nil read
        have empty := complete_accounts openedOuter
          (.ofPrimary (@Derives.array limit _ [] room (by simp)))
        simpa using empty
    · cases taken
  case h_12 => cases taken

/-- One more complete part in front of a comma. -/
theorem PartsRead.concat {d : Nat} {done : List Expr} {ls us : List Lexeme} {e : Expr}
    (read : PartsRead limit d done ls) (derived : Derives limit .logical d us e) :
    PartsRead limit d (e :: done) (ls ++ us ++ [.comma]) := by
  obtain ⟨parts, rfl, rfl, all⟩ := read
  refine ⟨parts ++ [(us, e)], by simp, by simp, ?_⟩
  exact List.forall_mem_append.mpr ⟨all, List.forall_mem_singleton.mpr derived⟩

/-- One more complete entry in front of a comma. -/
theorem EntriesRead.concat {d : Nat} {done : List (String × Expr)} {ls us : List Lexeme} {e : Expr}
    (read : EntriesRead limit d done ls) (key : String)
    (derived : Derives limit .logical d us e) :
    EntriesRead limit d ((key, e) :: done)
      (ls ++ [.literal key, .colon] ++ us ++ [.comma]) := by
  obtain ⟨entries, rfl, rfl, all⟩ := read
  refine ⟨entries ++ [(key, us, e)], by simp, by simp [entryPart], ?_⟩
  exact List.forall_mem_append.mpr ⟨all, List.forall_mem_singleton.mpr derived⟩

/-- The last part of a list, which has no comma. -/
theorem PartsRead.last {d : Nat} {done : List Expr} {ls us : List Lexeme} {e : Expr}
    (read : PartsRead limit d done ls) (derived : Derives limit .logical d us e) :
    ∃ parts : List (List Lexeme × Expr), (e :: done).reverse = parts.map Prod.snd ∧
      ls ++ us = separated (parts.map Prod.fst) ∧
      ∀ part ∈ parts, Derives limit .logical d part.1 part.2 := by
  obtain ⟨parts, rfl, rfl, all⟩ := read
  refine ⟨parts ++ [(us, e)], by simp, ?_, ?_⟩
  · rw [List.map_append, List.map_singleton, separated_concat]
  · exact List.forall_mem_append.mpr ⟨all, List.forall_mem_singleton.mpr derived⟩

/-- The last entry of an object, which has no comma. -/
theorem EntriesRead.last {d : Nat} {done : List (String × Expr)} {ls us : List Lexeme} {e : Expr}
    (read : EntriesRead limit d done ls) (key : String)
    (derived : Derives limit .logical d us e) :
    ∃ entries : List (String × List Lexeme × Expr),
      ((key, e) :: done).reverse = entries.map (fun entry => (entry.1, entry.2.2)) ∧
      ls ++ [.literal key, .colon] ++ us = separated (entries.map entryPart) ∧
      ∀ entry ∈ entries, Derives limit .logical d entry.2.1 entry.2.2 := by
  obtain ⟨entries, rfl, rfl, all⟩ := read
  refine ⟨entries ++ [(key, us, e)], by simp, ?_, ?_⟩
  · rw [List.map_append, List.map_singleton, separated_concat]
    simp [entryPart]
  · exact List.forall_mem_append.mpr ⟨all, List.forall_mem_singleton.mpr derived⟩

/-- The end of a part accounts for the lexeme behind it. -/
theorem endPart_accounts {frames : List Frame} {before us : List Lexeme} {e : Expr}
    {lexeme : Lexeme} {following : Progress} (opened : Opened limit frames before)
    (derived : Derives limit .logical (depth frames) us e)
    (taken : endPart lexeme e frames = .next following) :
    AccountsFor limit following (before ++ us ++ [lexeme]) := by
  unfold endPart at taken
  split at taken
  case h_8 => cases taken
  all_goals
    obtain rfl := Verdict.next.inj taken
    rw [depth_cons_of_nests rfl] at derived
  case h_1 outer =>
    obtain ⟨around, own, rfl, openedOuter, rfl, room⟩ := opened
    simpa using complete_accounts openedOuter (.ofPrimary (.group room derived))
  case h_2 callee done outer =>
    obtain ⟨around, own, rfl, openedOuter, room, ls, rfl, read⟩ := opened
    obtain ⟨parts, exprs, lexemes, all⟩ := read.last derived
    have called : Derives limit .primary (depth outer)
        (.call callee :: separated (parts.map Prod.fst) ++ [.closeParen])
        (.call callee (parts.map Prod.snd)) := .call room all
    have closed := complete_accounts openedOuter (.ofPrimary called)
    rw [exprs]
    simpa [← lexemes] using closed
  case h_3 done outer =>
    obtain ⟨around, own, rfl, openedOuter, room, ls, rfl, read⟩ := opened
    obtain ⟨parts, exprs, lexemes, all⟩ := read.last derived
    have closed := complete_accounts openedOuter (.ofPrimary (.array room all))
    rw [exprs]
    simpa [← lexemes] using closed
  case h_4 done key outer =>
    obtain ⟨around, own, rfl, openedOuter, room, ls, rfl, read⟩ := opened
    obtain ⟨entries, exprs, lexemes, all⟩ := read.last key derived
    have closed := complete_accounts openedOuter (.ofPrimary (.object room all))
    rw [exprs]
    simpa [← lexemes] using closed
  case h_5 callee done outer =>
    obtain ⟨around, own, rfl, openedOuter, room, ls, rfl, read⟩ := opened
    exact ⟨around, .call callee :: (ls ++ us ++ [.comma]), by simp, openedOuter, room, _, rfl,
      read.concat derived⟩
  case h_6 done outer =>
    obtain ⟨around, own, rfl, openedOuter, room, ls, rfl, read⟩ := opened
    exact ⟨around, .openBracket :: (ls ++ us ++ [.comma]), by simp, openedOuter, room, _, rfl,
      read.concat derived⟩
  case h_7 done key outer =>
    obtain ⟨around, own, rfl, openedOuter, room, ls, rfl, read⟩ := opened
    exact ⟨room, around, ls ++ [.literal key, .colon] ++ us ++ [.comma], by simp, openedOuter,
      read.concat key derived⟩

/-- Behind an operand, a step accounts for the lexeme that it takes. -/
theorem endOperand_accounts {frames : List Frame} {before us : List Lexeme} {e : Expr}
    {lexeme : Lexeme} {following : Progress} (opened : Opened limit frames before)
    (derived : Derives limit .unary (depth frames) us e)
    (taken : endOperand limit e frames lexeme = .next following) :
    AccountsFor limit following (before ++ us ++ [lexeme]) := by
  unfold endOperand at taken
  split at taken
  case h_1 operator =>
    split at taken
    · cases taken
    · obtain rfl := Verdict.next.inj taken
      exact ⟨before, us ++ [.comparison operator], by simp, opened, us, rfl, derived⟩
  case h_2 operator =>
    obtain ⟨room, rfl⟩ := of_nest_eq_next taken
    obtain ⟨around, ls, split, openedInner, compared⟩ := closeComparison_derives opened derived
    exact ⟨around, ls ++ [.connective operator], by simp [split], openedInner, room, ls, rfl,
      compared⟩
  case h_3 =>
    obtain ⟨around, ls, split, openedInner, closed⟩ := closeOperators_derives opened derived
    rw [split]
    exact endPart_accounts openedInner closed taken

/-- Each step keeps account of the lexemes read. -/
theorem step_accounts {progress following : Progress} {ls : List Lexeme} {lexeme : Lexeme}
    (account : AccountsFor limit progress ls)
    (taken : progress.step limit lexeme = .next following) :
    AccountsFor limit following (ls ++ [lexeme]) := by
  unfold step at taken
  split at taken
  case h_1 frames lexeme => exact beginOperand_accounts account taken
  case h_2 e frames lexeme =>
    obtain ⟨before, us, rfl, opened, derived⟩ := account
    exact endOperand_accounts opened derived taken
  case h_3 done frames key =>
    obtain rfl := Verdict.next.inj taken
    obtain ⟨room, before, entries, rfl, opened, read⟩ := account
    exact ⟨room, before, entries, rfl, opened, read⟩
  case h_4 frames =>
    obtain rfl := Verdict.next.inj taken
    obtain ⟨room, before, entries, rfl, opened, read⟩ := account
    obtain rfl := eq_nil_of_entriesRead_nil read
    simpa using complete_accounts opened (.ofPrimary (@Derives.object limit _ [] room (by simp)))
  case h_5 done key frames =>
    obtain rfl := Verdict.next.inj taken
    obtain ⟨room, before, entries, rfl, opened, read⟩ := account
    exact ⟨before, .openBrace :: entries ++ [.literal key, .colon], by simp, opened, room,
      entries, rfl, read⟩
  case h_6 owner frames key =>
    obtain rfl := Verdict.next.inj taken
    obtain ⟨before, rfl, opened⟩ := account
    exact ⟨before, [.member owner, .literal key], by simp, opened, .memberName⟩
  case h_7 owner frames text =>
    obtain ⟨v, denotes, rfl⟩ := of_numeral_eq_next taken
    obtain ⟨before, rfl, opened⟩ := account
    exact ⟨before, [.member owner, .number text], by simp, opened, .memberIndex denotes⟩
  case h_8 member frames =>
    obtain rfl := Verdict.next.inj taken
    obtain ⟨before, us, rfl, opened, derived⟩ := account
    exact ⟨before, us ++ [.closeBrace], by simp, opened, by simpa using derived⟩
  case h_9 member frames =>
    obtain rfl := Verdict.next.inj taken
    obtain ⟨before, us, rfl, opened, derived⟩ := account
    simpa using complete_accounts opened (.ofPrimary derived)
  case h_10 => cases taken

/-- Taking any number of steps keeps account of the lexemes read. -/
theorem feed_accounts {progress following : Progress} {ls rest : List Lexeme}
    (account : AccountsFor limit progress ls) (fed : progress.feed limit rest = some following) :
    AccountsFor limit following (ls ++ rest) := by
  induction rest generalizing progress ls with
  | nil =>
      obtain rfl := Option.some.inj fed
      simpa using account
  | cons lexeme rest induction =>
      unfold feed at fed
      split at fed
      · next taken => simpa using induction (step_accounts account taken) fed
      · cases fed

/-- A reading that is complete accounts for an expression of the loosest tier. -/
theorem finish_derives {progress : Progress} {ls : List Lexeme} {e : Expr}
    (account : AccountsFor limit progress ls) (complete : progress.finish = some e) :
    Derives limit .logical 0 ls e := by
  unfold finish at complete
  split at complete
  · next last frames =>
      obtain ⟨before, us, rfl, opened, derived⟩ := account
      obtain ⟨around, ls, split, openedOuter, closed⟩ := closeOperators_derives opened derived
      split at complete
      · next outermost =>
          obtain rfl := Option.some.inj complete
          rw [List.isEmpty_iff.mp outermost] at openedOuter closed
          obtain rfl : around = [] := openedOuter
          rw [split]
          exact closed
      · cases complete
  · cases complete

/-- The lexemes that are read completely are exactly those that the grammar derives. -/
theorem recognized_iff (limit : Nat) (ls : List Lexeme) (e : Expr) :
    (feed limit (.operand []) ls).bind finish = some e ↔ Derives limit .logical 0 ls e := by
  constructor
  · intro recognized
    obtain ⟨following, fed, complete⟩ := Option.bind_eq_some_iff.mp recognized
    have account : AccountsFor limit following ([] ++ ls) := feed_accounts (by exact rfl) fed
    exact finish_derives account complete
  · intro derivation
    obtain ⟨last, inner, fed, closed⟩ := read_of_derives derivation [] rfl trivial
    rw [fed, Option.bind_some, finish, closed]
    rfl

end Progress

/-- A text is an expression exactly if it consists of lexemes that the grammar derives. -/
theorem parse_eq_ok_iff (source : String) (e : Expr) :
    Expr.parse source = .ok e ↔
      ∃ ls, ConsistsOf source ls ∧ Derives maxDepth .logical 0 ls e := by
  rw [parse_eq_follow, Progress.follow_eq_ok_iff, Progress.recognized_iff]
  simp only [consistsOf_iff_lists]
  constructor
  · rintro ⟨ends, derivation⟩
    exact ⟨_, ⟨rfl, ends⟩, derivation⟩
  · rintro ⟨ls, ⟨rfl, ends⟩, derivation⟩
    exact ⟨ends, derivation⟩

/-- Parsing accepts exactly the grammar and builds exactly its trees: a text is read as
an expression if and only if it can be cut into tokens, and these, without the blanks
and the end, are derived as that expression, with 128 levels of nesting at most. -/
theorem parse_iff_grammar (source : String) (e : Expr) :
    Expr.parse source = .ok e ↔
      ∃ tokens ls, tokenize source false = .ok tokens ∧
        (significant tokens).map Token.content = ls.map .lexeme ++ [.ending] ∧
        Derives maxDepth .logical 0 ls e := by
  rw [parse_eq_ok_iff]
  constructor
  · rintro ⟨ls, ⟨tokens, cut, contents⟩, derivation⟩
    exact ⟨tokens, ls, cut, contents, derivation⟩
  · rintro ⟨tokens, ls, cut, contents, derivation⟩
    exact ⟨ls, ⟨tokens, cut, contents⟩, derivation⟩

end EdgeExpression
