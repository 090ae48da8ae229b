import EdgeExpression.Proofs.Blame
import EdgeExpression.Proofs.Insertion

/-!
# The level beyond the limit

An expression whose levels of nesting exceed the limit is refused at the very lexeme that opens
the first level beyond it, and no other expression is refused for its nesting.

In front of that lexeme the lexemes are run through under the limit as without it, and the levels
that are open there were opened under the limit. So the lexeme opens the first level beyond the
limit and no deeper one, and a reading refuses it.
-/
namespace EdgeExpression

variable {limit : Nat}

/-- Levels that are not within a limit exceed it somewhere for the first time. -/
theorem exists_excess {entries : List LeveledLexeme} (excess : ¬ LevelsWithin limit entries) :
    ∃ before value level after, entries = before ++ (value, some level) :: after ∧
      LevelsWithin limit before ∧ limit < level := by
  induction entries with
  | nil => simp at excess
  | cons entry rest induction =>
      by_cases room : ∀ level ∈ entry.2, level ≤ limit
      · have later : ¬ LevelsWithin limit rest := fun within =>
          excess (levelsWithin_cons.mpr ⟨room, within⟩)
        obtain ⟨before, value, level, after, rfl, within, beyond⟩ := induction later
        exact ⟨entry :: before, value, level, after, rfl, levelsWithin_cons.mpr ⟨room, within⟩,
          beyond⟩
      · rcases entry with ⟨value, _ | level⟩
        · simp at room
        · exact ⟨[], value, level, rest, rfl, levelsWithin_nil, by simpa using room⟩

namespace Progress

/-- What a reading has opened does not exceed the limit. -/
theorem depth_le_of_opened {frames : List Frame} {ls : List Lexeme}
    (opened : Opened limit frames ls) : depth frames ≤ limit := by
  induction frames generalizing ls with
  | nil => exact Nat.zero_le limit
  | cons frame outer induction =>
      obtain ⟨before, own, _, openedOuter, accounts⟩ := opened
      cases frame with
      | comparison left operator =>
          rw [depth_comparison]
          exact induction openedOuter
      | group | not =>
          rw [depth_cons_of_nests rfl]
          exact accounts.2
      | _ =>
          rw [depth_cons_of_nests rfl]
          exact accounts.1

/-- Completing a comparison opens nothing. -/
theorem depth_closeComparison_le (e : Expr) (frames : List Frame) :
    depth (closeComparison e frames).2 ≤ depth frames := by
  unfold closeComparison
  split
  · rw [depth_comparison]
  · exact Nat.le_refl _

/-- A lexeme opens the first level beyond the limit at most. -/
theorem level_le_of_accounts {progress : Progress} {ls : List Lexeme} {lexeme : Lexeme}
    {level : Nat} (account : AccountsFor limit progress ls)
    (opens : progress.level? lexeme = some level) : level ≤ limit + 1 := by
  unfold level? at opens
  split at opens
  case h_7 => cases opens
  case h_6 e frames operator =>
    obtain rfl := Option.some.inj opens
    obtain ⟨before, us, _, opened, _⟩ := account
    exact Nat.succ_le_succ
      (Nat.le_trans (depth_closeComparison_le e frames) (depth_le_of_opened opened))
  all_goals
    obtain rfl := Option.some.inj opens
    exact Nat.succ_le_succ (depth_le_of_opened account)

/-- Behind lexemes that are read, a reading is followed from where they lead. -/
theorem follow_append {progress reached : Progress} {before : List (Lexeme × Position)}
    (read : progress.feed limit (before.map Prod.fst) = some reached)
    (behind : List (Lexeme × Position)) (outcome : Except LexError Position) :
    progress.follow limit (before ++ behind) outcome = reached.follow limit behind outcome := by
  induction before generalizing progress with
  | nil =>
      obtain rfl := Option.some.inj read
      rfl
  | cons entry before induction =>
      unfold feed at read
      simp only [List.map_cons] at read
      split at read
      · next taken =>
          simp only [List.cons_append, follow, taken]
          exact induction read
      · cases read

/-- A lexeme that is refused behind lexemes that are read is reported. -/
theorem follow_refused {progress reached : Progress} {before behind : List (Lexeme × Position)}
    {value : Lexeme} {start : Position} {outcome : Except LexError Position}
    (read : progress.feed limit (before.map Prod.fst) = some reached)
    (refused : reached.step limit value = .refused) :
    progress.follow limit (before ++ (value, start) :: behind) outcome =
      .error ⟨.unexpectedChar value.leadChar, start⟩ := by
  rw [follow_append read]
  simp [follow, refused]

end Progress

/-- A text whose levels exceed the limit is refused where they do so for the first time. -/
theorem parse_of_excess {source : String} {entries : List LeveledLexeme} {e : Expr}
    (listed : (Reading.ofText source).Lists (entries.map Prod.fst))
    (leveled : Leveled .logical 0 entries e) (excess : ¬ LevelsWithin maxDepth entries) :
    ∃ before value after start, entries = before ++ (value, some (maxDepth + 1)) :: after ∧
      LevelsWithin maxDepth before ∧
      (Reading.ofText source).lexemes[before.length]? = some (value, start) ∧
      Expr.parse source = .error ⟨.unexpectedChar value.leadChar, start⟩ := by
  obtain ⟨before, value, level, after, rfl, within, beyond⟩ := exists_excess excess
  obtain ⟨last, inner, runs, _⟩ := Progress.runs_of_leveled leveled [] rfl trivial
  obtain ⟨reached, front, rest⟩ := runs.split
  have read := front.feed within
  have opens : reached.level? value = some level := by
    cases rest with
    | cons takes _ => exact takes.level
  -- What was opened in front of the lexeme lies within the limit, so its level is the next one.
  have account : Progress.AccountsFor maxDepth reached ([] ++ before.map Prod.fst) :=
    Progress.feed_accounts (by exact rfl) read
  have next := Progress.level_le_of_accounts account opens
  obtain rfl : level = maxDepth + 1 := by omega
  obtain ⟨lexemes, _⟩ := listed
  rw [List.map_append, List.map_cons] at lexemes
  obtain ⟨first, others, split, same, own⟩ := List.map_eq_append_iff.mp lexemes
  obtain ⟨⟨value', start⟩, behind, rfl, rfl, _⟩ := List.map_eq_cons_iff.mp own
  refine ⟨before, value', after, start, rfl, within, ?_, ?_⟩
  · have length : first.length = before.length := by simpa using congrArg List.length same
    rw [split, ← length]
    simp
  · rw [parse_eq_follow, split]
    exact Progress.follow_refused (same ▸ read) (Progress.step_of_lt_level opens beyond)

/-- The lexemes of a whole expression decide on the expression and on the levels they open. -/
theorem Leveled.unique {entries others : List LeveledLexeme} {e other : Expr}
    (leveled : Leveled .logical 0 entries e) (also : Leveled .logical 0 others other)
    (same : others.map Prod.fst = entries.map Prod.fst) : others = entries ∧ other = e := by
  obtain ⟨last, inner, runs, closed⟩ := Progress.runs_of_leveled leveled [] rfl trivial
  obtain ⟨last', inner', runs', closed'⟩ := Progress.runs_of_leveled also [] rfl trivial
  obtain ⟨rfl, reached⟩ := runs'.unique runs same
  obtain ⟨rfl, rfl⟩ := Progress.after.inj reached
  exact ⟨rfl, congrArg Prod.fst (closed'.symm.trans closed)⟩

/-- Behind any number of parts of a list a lexeme opens the level that it would open without
them. -/
theorem Progress.level?_behind_siblings (listing : Listing) (done : List Expr) (outer : List Frame)
    (siblings : List (List LeveledLexeme × Expr))
    (leveled : ∀ sibling ∈ siblings, Leveled .logical (depth outer + 1) sibling.1 sibling.2 ∧
      LevelsWithin limit sibling.1) :
    ∃ behind, (operand (listing.frame done :: outer)).feed limit
        ((siblings.flatMap (·.1 ++ [(.comma, none)])).map Prod.fst) = some behind ∧
      behind.level? = (operand (listing.frame done :: outer)).level? := by
  have inside (done : List Expr) : depth (listing.frame done :: outer) = depth outer + 1 :=
    depth_cons_of_nests (by cases listing <;> rfl) outer
  have runs := runs_siblings listing outer siblings done fun sibling member done =>
    runs_of_leveled (leveled sibling member).1 _ (inside done)
  rw [List.flatMap_map] at runs
  have within : LevelsWithin limit (siblings.flatMap (·.1 ++ [(.comma, none)])) := by
    intro entry member
    obtain ⟨sibling, among, own⟩ := List.mem_flatMap.mp member
    have part : LevelsWithin limit (sibling.1 ++ [(.comma, none)]) := by
      simp [(leveled sibling among).2]
    exact part entry own
  refine ⟨_, runs.feed within, ?_⟩
  funext value
  cases value with
  | call | openParen | openBracket | openBrace | not => simp [level?, inside]
  | _ => rfl

/-- The lexemes of a reading are tokens at their places, and their first characters stand there. -/
theorem exists_token_of_read {source : String} {tokens : List Token} {k : Nat} {value : Lexeme}
    {start : Position} (cut : tokenize source false = .ok tokens)
    (read : (Reading.ofText source).lexemes[k]? = some (value, start)) :
    ∃ token, (significant tokens)[k]? = some token ∧ token.content = .lexeme value ∧
      token.position = start ∧ charAt source.toList start.offset = some value.leadChar := by
  obtain ⟨ending, _, contents⟩ := contents_of_tokenize cut
  have shown : ((significant tokens).map fun token => (token.content, token.position))[k]? =
      some (.lexeme value, start) := by
    rw [contents, Reading.contents, List.getElem?_append_left]
    · simp [read]
    · simpa using (List.getElem?_eq_some_iff.mp read).1
  rw [List.getElem?_map] at shown
  obtain ⟨token, found, same⟩ := Option.map_eq_some_iff.mp shown
  obtain ⟨content, position⟩ := Prod.mk.inj same
  have begins := Cursor.reading_foundAt (.ofList source.toList) rfl (seam_nil _)
    (value, start) (List.mem_of_getElem? read)
  exact ⟨token, found, content, position, (charAt_eq_some_iff _ _ _).mpr begins.standsAt⟩

/-- An expression whose levels of nesting are within 128 is parsed; any other one is refused at
the first token that opens level 129. The tokens decide on the levels that they open, and what
was closed in front of a token does not count: behind any number of parts of a list, each token
opens the level that it would open without them. -/
theorem parse_refuses_excess_level {source : String} {tokens : List Token} {ls : List Lexeme}
    {e : Expr} (cut : tokenize source false = .ok tokens)
    (contents : (significant tokens).map Token.content = ls.map .lexeme ++ [.ending])
    (derivation : Derives limit .logical 0 ls e) :
    ∃ entries : List LeveledLexeme, entries.map Prod.fst = ls ∧ Leveled .logical 0 entries e ∧
      (∀ others other, others.map Prod.fst = ls → Leveled .logical 0 others other →
        others = entries ∧ other = e) ∧
      (LevelsWithin 128 entries → Expr.parse source = .ok e) ∧
      (¬ LevelsWithin 128 entries → ∃ before value after token c,
        entries = before ++ (value, some 129) :: after ∧ LevelsWithin 128 before ∧
        (significant tokens)[before.length]? = some token ∧ token.content = .lexeme value ∧
        charAt source.toList token.position.offset = some c ∧
        Expr.parse source = .error ⟨.unexpectedChar c, token.position⟩) ∧
      ∀ (listing : Progress.Listing) (done : List Expr) (outer : List Frame)
        (siblings : List (List LeveledLexeme × Expr)),
        (∀ sibling ∈ siblings, Leveled .logical (depth outer + 1) sibling.1 sibling.2 ∧
          LevelsWithin 128 sibling.1) →
        ∃ behind, (Progress.operand (listing.frame done :: outer)).feed 128
            ((siblings.flatMap (·.1 ++ [(.comma, none)])).map Prod.fst) = some behind ∧
          behind.level? = (Progress.operand (listing.frame done :: outer)).level? := by
  obtain ⟨entries, rfl, _, leveled⟩ := derives_iff_leveled.mp derivation
  have listed := (consistsOf_iff_lists source _).mp ⟨tokens, cut, contents⟩
  refine ⟨entries, rfl, leveled, ?_, ?_, ?_, Progress.level?_behind_siblings⟩
  · exact fun others other same also => leveled.unique also same
  · intro within
    have derives := derives_iff_leveled.mpr ⟨entries, rfl, within, leveled⟩
    exact (parse_eq_ok_iff source e).mpr ⟨_, ⟨tokens, cut, contents⟩, derives⟩
  · intro excess
    obtain ⟨before, value, after, start, split, within, read, refused⟩ :=
      parse_of_excess listed leveled excess
    obtain ⟨token, found, content, rfl, begins⟩ := exists_token_of_read cut read
    exact ⟨before, value, after, token, _, split, within, found, content, begins, refused⟩

/-- A numeral that is read stands for its number, and opens no level. -/
theorem leveled_number {numeral : String} {v : Int64} (read : Decimal.toInt64? numeral = some v)
    (d : Nat) : Leveled .unary d [(.number numeral, none)] (.number v) :=
  .ofPrimary (.number ((Decimal.toInt64?_eq_some_iff numeral v).mp read))

/-- Negations of an expression, each of the one behind it. -/
def negated : Nat → Expr → Expr
  | 0, e => e
  | k + 1, e => .not (negated k e)

/-- The levels that negations open in some surroundings. -/
def negationsFrom (d : Nat) : Nat → List LeveledLexeme
  | 0 => []
  | k + 1 => (.not, some (d + 1)) :: negationsFrom (d + 1) k

/-- Each negation opens one level more than the one in front of it. -/
theorem leveled_negated {d k : Nat} {entries : List LeveledLexeme} {e : Expr}
    (leveled : Leveled .unary (d + k) entries e) :
    Leveled .unary d (negationsFrom d k ++ entries) (negated k e) := by
  induction k generalizing d with
  | zero => exact leveled
  | succ k induction =>
      refine .not (induction ?_)
      rwa [Nat.succ_add_eq_add_succ]

/-- A negation opens one level, so it is parsed; the last of 129 negations opens level 129, so it is
refused. -/
theorem parse_negations_within_levels_and_beyond :
    let source := String.ofList (List.replicate 129 '!' ++ ['1'])
    let levels := negationsFrom 0 129 ++ [(.number "1", none)]
    (Leveled .logical 0 [(.not, some 1), (.number "1", none)] (.not (.number 1)) ∧
      Expr.parse "!1" = .ok (.not (.number 1))) ∧
    Leveled .logical 0 levels (negated 129 (.number 1)) ∧ ¬ LevelsWithin 128 levels ∧
      Expr.parse source = .error ⟨.unexpectedChar '!', ⟨128, 0, 128⟩⟩ := by
  intro source levels
  have one := leveled_number (show Decimal.toInt64? "1" = some 1 by decide +kernel)
  constructor
  · have cut : tokenize "!1" false = .ok
        [⟨.lexeme .not, ⟨0, 0, 0⟩, none⟩, ⟨.lexeme (.number "1"), ⟨1, 0, 1⟩, none⟩,
          ⟨.ending, ⟨2, 0, 2⟩, none⟩] := by decide +kernel
    have leveled : Leveled .logical 0 [(.not, some 1), (.number "1", none)] (.not (.number 1)) :=
      .ofComparison (.ofUnary (.not (one 1)))
    have derivation := leveled.derives (show LevelsWithin 1 _ by decide)
    obtain ⟨entries, _, _, unique, parsed, _⟩ := parse_refuses_excess_level cut rfl derivation
    obtain ⟨rfl, _⟩ := unique _ _ rfl leveled
    exact ⟨leveled, parsed (by decide)⟩
  · have cut : tokenize source false = .ok
        ((List.range 129).map (fun i => ⟨.lexeme .not, ⟨i, 0, i⟩, none⟩) ++
          [⟨.lexeme (.number "1"), ⟨129, 0, 129⟩, none⟩, ⟨.ending, ⟨130, 0, 130⟩, none⟩]) := by
      decide +kernel
    have leveled : Leveled .logical 0 levels (negated 129 (.number 1)) :=
      .ofComparison (.ofUnary (leveled_negated (one 129)))
    have derivation := leveled.derives (show LevelsWithin 129 levels by decide +kernel)
    have excess : ¬ LevelsWithin 128 levels := by decide +kernel
    obtain ⟨entries, _, _, unique, _, refusal, _⟩ :=
      parse_refuses_excess_level cut (by decide +kernel) derivation
    obtain ⟨rfl, _⟩ := unique _ _ rfl leveled
    obtain ⟨before, value, after, token, c, split, _, found, _, begins, refused⟩ := refusal excess
    -- Among all lexemes only the last negation opens level 129.
    have opens : levels[before.length]? = some (value, some 129) := by rw [split]; simp
    have only : ∀ k < levels.length, (levels[k]?.bind Prod.snd) = some 129 → k = 128 := by
      decide +kernel
    have place : before.length = 128 :=
      only _ (List.getElem?_eq_some_iff.mp opens).1 (by rw [opens]; rfl)
    rw [place] at found
    obtain rfl : token = ⟨.lexeme .not, ⟨128, 0, 128⟩, none⟩ :=
      Option.some.inj (found.symm.trans (by decide +kernel))
    obtain rfl : c = '!' := Option.some.inj (begins.symm.trans (by decide +kernel))
    exact ⟨leveled, excess, refused⟩

end EdgeExpression
