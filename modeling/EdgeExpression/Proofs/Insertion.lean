import EdgeExpression.Proofs.Relocation
import EdgeExpression.Proofs.SpacedText
import EdgeExpression.Proofs.Viable

/-!
# Blanks between lexemes

Blanks may be inserted wherever a token begins, in front of the end as well. Each token is
recognized without a look beyond its own text, but for the one character that might belong to
it, and a blank never does. So the lexemes stay the same, and only the tokens of blanks behind
colons may come, go or grow.

Parsing depends on the lexemes alone. The result is the same expression, or an error of the same
cause, at the token that is the same in both texts.
-/
namespace EdgeExpression

/-! ## Inserting text at byte offsets -/

/-- A text with more text inserted at byte offsets; the first character of the text has the
given offset. -/
def weave (inserted : Nat → String) : Nat → List Char → List Char
  | offset, [] => (inserted offset).toList
  | offset, c :: rest =>
      (inserted offset).toList ++ c :: weave inserted (offset + c.utf8Size) rest

/-- A source with more text inserted at byte offsets. -/
def withInserted (inserted : Nat → String) (source : String) : String :=
  String.ofList (weave inserted 0 source.toList)

variable {inserted : Nat → String}

/-- Where nothing is inserted a text stays as it is. -/
theorem weave_untouched {offset : Nat} {text : List Char} (rest : List Char)
    (nothing : ∀ place, offset ≤ place → place < offset + (String.ofList text).utf8ByteSize →
      inserted place = "") :
    weave inserted offset (text ++ rest) =
      text ++ weave inserted (offset + (String.ofList text).utf8ByteSize) rest := by
  induction text generalizing offset with
  | nil => rfl
  | cons c text induction =>
      have positive : 0 < c.utf8Size := c.utf8Size_pos
      rw [utf8ByteSize_ofList_cons] at nothing ⊢
      have none : inserted offset = "" := nothing offset (Nat.le_refl _) (by omega)
      have behind : ∀ place, offset + c.utf8Size ≤ place →
          place < offset + c.utf8Size + (String.ofList text).utf8ByteSize → inserted place = "" :=
        fun place least most => nothing place (by omega) (by omega)
      rw [List.cons_append, weave, none, induction behind, Nat.add_assoc]
      rfl

/-- If nothing is inserted inside a text, all that is inserted stands in front of it or behind
it. -/
theorem weave_own {offset : Nat} {own : List Char} (nonempty : own ≠ []) (rest : List Char)
    (nothing : ∀ place, offset < place → place < offset + (String.ofList own).utf8ByteSize →
      inserted place = "") :
    weave inserted offset (own ++ rest) = (inserted offset).toList ++
      (own ++ weave inserted (offset + (String.ofList own).utf8ByteSize) rest) := by
  obtain ⟨c, text, rfl⟩ := List.exists_cons_of_ne_nil nonempty
  have positive : 0 < c.utf8Size := c.utf8Size_pos
  rw [utf8ByteSize_ofList_cons] at nothing ⊢
  have behind : ∀ place, offset + c.utf8Size ≤ place →
      place < offset + c.utf8Size + (String.ofList text).utf8ByteSize → inserted place = "" :=
    fun place least most => nothing place (by omega) (by omega)
  rw [List.cons_append, weave, weave_untouched rest behind, Nat.add_assoc]
  rfl

/-- Blanks with blanks inserted are blanks. -/
theorem exists_blanks_weave (blank : ∀ place, ∀ c ∈ (inserted place).toList, isBlank c = true)
    {blanks : List Char} (blankToo : ∀ c ∈ blanks, isBlank c = true) (offset : Nat)
    (rest : List Char) :
    ∃ more, weave inserted offset (blanks ++ rest) =
        more ++ weave inserted (offset + (String.ofList blanks).utf8ByteSize) rest ∧
      ∀ c ∈ more, isBlank c = true := by
  induction blanks generalizing offset with
  | nil => exact ⟨[], rfl, by simp⟩
  | cons c blanks induction =>
      obtain ⟨first, others⟩ := List.forall_mem_cons.mp blankToo
      obtain ⟨more, split, blankMore⟩ := induction others (offset + c.utf8Size)
      refine ⟨(inserted offset).toList ++ c :: more, ?_, ?_⟩
      · rw [List.cons_append, weave, split, utf8ByteSize_ofList_cons, Nat.add_assoc]
        simp
      · exact List.forall_mem_append.mpr ⟨blank offset, List.forall_mem_cons.mpr ⟨first, blankMore⟩⟩

/-- Only blanks are woven into blanks. -/
theorem isBlank_of_mem_weave (blank : ∀ place, ∀ c ∈ (inserted place).toList, isBlank c = true)
    {blanks : List Char} (blankToo : ∀ c ∈ blanks, isBlank c = true) (offset : Nat) :
    ∀ c ∈ weave inserted offset blanks, isBlank c = true := by
  obtain ⟨more, split, blankMore⟩ := exists_blanks_weave blank blankToo offset []
  rw [List.append_nil] at split
  rw [split]
  exact List.forall_mem_append.mpr ⟨blankMore, blank _⟩

/-- A text with blanks inserted begins as before, or with a blank. -/
theorem head?_weave (blank : ∀ place, ∀ c ∈ (inserted place).toList, isBlank c = true)
    (offset : Nat) (text : List Char) :
    ∀ c ∈ (weave inserted offset text).head?, c ∈ text.head? ∨ isBlank c = true := by
  intro c head
  cases front : (inserted offset).toList with
  | cons d more =>
      have begins : (weave inserted offset text).head? = some d := by
        cases text <;> simp [weave, front]
      obtain rfl : d = c := by simpa [begins] using head
      exact .inr (blank offset d (by simp [front]))
  | nil =>
      cases text with
      | nil => simp [weave, front] at head
      | cons d rest => exact .inl (by simpa [weave, front] using head)

/-! ## The lexemes stay the same -/

/-- From an offset on, text is inserted only where one of some tokens begins. -/
def InsertedAt (inserted : Nat → String) (tokens : List Token) (offset : Nat) : Prop :=
  ∀ place, offset ≤ place → inserted place ≠ "" → ∃ token ∈ tokens, token.position.offset = place

/-- Behind the place where the first token begins, text is inserted where others begin. -/
theorem InsertedAt.tail {token : Token} {rest : List Token} {offset further : Nat}
    (between : InsertedAt inserted (token :: rest) offset) (onward : offset ≤ further)
    (beyond : token.position.offset < further) : InsertedAt inserted rest further := by
  intro place least something
  obtain ⟨other, member, same⟩ := between place (by omega) something
  rcases List.mem_cons.mp member with rfl | later
  · omega
  · exact ⟨other, later, same⟩

/-- Blanks inserted in front of a lexeme and behind it leave it as it is. -/
theorem lists_lexeme_weave (blank : ∀ place, ∀ c ∈ (inserted place).toList, isBlank c = true)
    {start behind cursor : Cursor} {blanks own before : List Char} {value : Lexeme}
    {ls : List Lexeme} (passes : start.Passes blanks own behind)
    (found : scan (own ++ behind.rest) = .found value own)
    (nothing : ∀ place, (start.position.past blanks).offset < place →
      place < behind.position.offset → inserted place = "")
    (blankBefore : ∀ c ∈ before, isBlank c = true)
    (text : cursor.rest = before ++ weave inserted start.position.offset start.rest)
    (listed : ∀ next : Cursor, next.rest = weave inserted behind.position.offset behind.rest →
      next.reading.Lists ls) :
    cursor.reading.Lists (value :: ls) := by
  rw [passes.position, Position.offset_past _ own] at nothing listed
  rw [Position.offset_past] at nothing listed
  obtain ⟨more, split, blankMore⟩ :=
    exists_blanks_weave blank passes.blank start.position.offset (own ++ behind.rest)
  rw [passes.text, split, weave_own (scan_read_ne_nil found) _ nothing, ← List.append_assoc,
    ← List.append_assoc] at text
  have blankAll : ∀ c ∈ before ++ more ++
      (inserted (start.position.offset + (String.ofList blanks).utf8ByteSize)).toList,
      isBlank c = true :=
    List.forall_mem_append.mpr ⟨List.forall_mem_append.mpr ⟨blankBefore, blankMore⟩, blank _⟩
  exact lists_cons text blankAll (scan_found_exchange found (head?_weave blank _ _)) listed

namespace TokenStream

variable {stream after : TokenStream} {token : Token}

/-- No token begins in front of the cursor it is pulled from. -/
theorem offset_le_of_pull (pulled : stream.pull = (.ok token, after)) :
    stream.cursor.position.offset ≤ token.position.offset := by
  obtain ⟨blanks, own, _, shape, _⟩ := pull_token pulled
  rw [shape]
  exact Position.offset_le_past _ blanks

/-- No token that is still handed out begins in front of the cursor. -/
theorem offset_le_of_mem_remaining (member : .ok token ∈ stream.remaining) :
    stream.cursor.position.offset ≤ token.position.offset := by
  fun_induction remaining stream with
  | case1 => cases member
  | case2 stream result after handed induction =>
      obtain ⟨_, behind, pulled, rfl⟩ := pull_of_next handed
      rcases List.mem_cons.mp member with rfl | later
      · exact offset_le_of_pull pulled
      · obtain ⟨⟨blanks, own, passes⟩, _⟩ := pull_passes pulled
        exact Nat.le_trans passes.offset_le (induction later)

/-- Every token but the end begins in front of where the stream is left. -/
theorem offset_lt_of_pull (pulled : stream.pull = (.ok token, after))
    (more : token.content ≠ .ending) :
    token.position.offset < after.cursor.position.offset := by
  obtain ⟨blanks, own, passes, shape, stands, _⟩ := pull_token pulled
  rw [shape, passes.position]
  exact Position.offset_lt_past _ (stands.own_ne_nil more)

/-- Where text is inserted only where tokens begin, nothing is inserted inside the token that
comes first: the others begin behind it. -/
theorem nothing_inside {rest : List Token} {ended : Bool}
    (pulled : stream.pull = (.ok token, after))
    (others : rest.map .ok = remaining { after with ended := ended })
    (between : InsertedAt inserted (token :: rest) stream.cursor.position.offset) :
    ∀ place, token.position.offset < place → place < after.cursor.position.offset →
      inserted place = "" := by
  intro place least most
  by_contra something
  have first := offset_le_of_pull pulled
  obtain ⟨other, member, same⟩ := between place (by omega) something
  rcases List.mem_cons.mp member with rfl | member
  · omega
  · have handedOut : .ok other ∈ remaining { after with ended := ended } :=
      others ▸ List.mem_map_of_mem member
    have behind := offset_le_of_mem_remaining handedOut
    exact absurd same (Nat.ne_of_gt (Nat.lt_of_lt_of_le most behind))

/-- Blanks inserted where tokens begin leave the lexemes as they are. Proof: by induction on the
handing out of the tokens. A token of blanks lies among other blanks. In front of a lexeme
there are blanks only, and nothing is inserted inside it. -/
theorem lists_weave {tokens : List Token} (taken : stream.remaining = tokens.map .ok)
    (running : stream.ended = false)
    (blank : ∀ place, ∀ c ∈ (inserted place).toList, isBlank c = true)
    (between : InsertedAt inserted tokens stream.cursor.position.offset)
    {cursor : Cursor} {before : List Char} (blankBefore : ∀ c ∈ before, isBlank c = true)
    (text : cursor.rest =
      before ++ weave inserted stream.cursor.position.offset stream.cursor.rest) :
    cursor.reading.Lists (stream.cursor.reading.lexemes.map Prod.fst) := by
  fun_induction remaining stream generalizing tokens cursor before with
  | case1 stream after handed => simp [next, running] at handed
  | case2 stream result after handed induction =>
      obtain ⟨_, behind, pulled, rfl⟩ := pull_of_next handed
      obtain ⟨token, rest, rfl, rfl, others⟩ := List.map_eq_cons_iff.mp taken.symm
      obtain ⟨blanks, own, passes, _, stands, finished⟩ := pull_token pulled
      rw [reading_pull pulled]
      rcases token with ⟨value | run | _, position, raw⟩
      · have beyond := offset_lt_of_pull pulled (by simp)
        have nothing := nothing_inside pulled others between
        obtain ⟨blanks, own, passes, begins, found⟩ :=
          Cursor.look_eq_lexeme_iff.mp (look_of_pull pulled).1
        rw [begins] at nothing
        refine lists_lexeme_weave blank passes found nothing blankBefore text fun next left => ?_
        exact induction others.symm rfl (between.tail passes.offset_le beyond)
          (List.forall_mem_nil _) left
      · have beyond := offset_lt_of_pull pulled (by simp)
        obtain ⟨_, rfl, _, blankOwn⟩ : own ≠ [] ∧ blanks = [] ∧ own = run.toList ∧ _ := stands
        obtain ⟨more, split, blankMore⟩ :=
          exists_blanks_weave blank blankOwn stream.cursor.position.offset behind.cursor.rest
        have stop := passes.offset_eq
        rw [String.ofList_nil, String.utf8ByteSize_empty, Nat.add_zero] at stop
        rw [passes.text, List.nil_append, split, ← stop, ← List.append_assoc] at text
        exact induction others.symm rfl (between.tail passes.offset_le beyond)
          (List.forall_mem_append.mpr ⟨blankBefore, blankMore⟩) text
      · obtain rfl : own = [] := stands
        have blankRest : ∀ c ∈ stream.cursor.rest, isBlank c = true := by
          rw [passes.text, finished rfl, List.append_nil, List.append_nil]
          exact passes.blank
        apply lists_nil
        rw [text]
        exact List.forall_mem_append.mpr
          ⟨blankBefore, isBlank_of_mem_weave blank blankRest _⟩

end TokenStream

/-! ## Parsing depends on the lexemes alone -/

/-- The same lexemes stand at the same places of their lists. -/
theorem sameLexemes_of_map_fst {lexemes others : List (Lexeme × Position)}
    (same : lexemes.map Prod.fst = others.map Prod.fst) :
    SameLexemes
      (fun first second => (first, second) ∈ (lexemes.map Prod.snd).zip (others.map Prod.snd))
      lexemes others := by
  have values : List.Forall₂ (fun entry other => entry.1 = other.1) lexemes others := by
    rw [← List.forall₂_eq_eq_eq, List.forall₂_map_left_iff, List.forall₂_map_right_iff] at same
    exact same
  obtain ⟨length, each⟩ := List.forall₂_iff_zip.mp values
  refine List.forall₂_iff_zip.mpr ⟨length, fun member => ⟨each member, ?_⟩⟩
  rw [List.zip_map]
  exact List.mem_map_of_mem member

/-- A token of one text and a token of another are the same one, at two positions, if they
stand at the same place among the tokens other than those of blanks. -/
def SameToken (tokens others : List Token) (first second : Position) : Prop :=
  ∃ token other, (token, other) ∈ (significant tokens).zip (significant others) ∧
    token.position = first ∧ other.position = second

/-- The tokens of a text, those of blanks left out, are what its reading contains. -/
theorem contents_of_tokenize {source : String} {tokens : List Token}
    (taken : tokenize source false = .ok tokens) :
    ∃ ending, (Reading.ofText source).outcome = .ok ending ∧
      (significant tokens).map (fun token => (token.content, token.position)) =
        (Reading.ofText source).contents ending := by
  have told := tokenize_tells source false
  unfold Reading.Tells at told
  split at told
  · next ending ends =>
      obtain ⟨found, same, contents⟩ := told
      obtain rfl := Except.ok.inj (same.symm.trans taken)
      exact ⟨ending, ends, contents⟩
  · next error faulty =>
      rw [told] at taken
      cases taken

/-- The positions of a reading are those of the tokens other than those of blanks. -/
theorem positions_of_contents {reading : Reading} {ending : Position} {tokens : List Token}
    (contents : (significant tokens).map (fun token => (token.content, token.position)) =
      reading.contents ending) :
    (significant tokens).map Token.position = reading.lexemes.map Prod.snd ++ [ending] := by
  simpa [Reading.contents, Function.comp_def] using congrArg (List.map Prod.snd) contents

/-- Texts with the same lexemes are parsed to the same result: the same expression, or an error
of the same cause at the same token. -/
theorem sameResult_of_map_fst {source other : String} {tokens others : List Token}
    (taken : tokenize source false = .ok tokens) (takenToo : tokenize other false = .ok others)
    (same : (Reading.ofText source).lexemes.map Prod.fst =
      (Reading.ofText other).lexemes.map Prod.fst) :
    SameResult (SameToken tokens others) (Expr.parse source) (Expr.parse other) := by
  obtain ⟨ending, ends, contents⟩ := contents_of_tokenize taken
  obtain ⟨otherEnding, endsToo, contentsToo⟩ := contents_of_tokenize takenToo
  have length : ((Reading.ofText source).lexemes.map Prod.snd).length =
      ((Reading.ofText other).lexemes.map Prod.snd).length := by
    simpa using congrArg List.length same
  have zipped : ((Reading.ofText source).lexemes.map Prod.snd).zip
        ((Reading.ofText other).lexemes.map Prod.snd) ++ [(ending, otherEnding)] =
      ((significant tokens).zip (significant others)).map
        (Prod.map Token.position Token.position) := by
    rw [← List.zip_map, positions_of_contents contents, positions_of_contents contentsToo,
      List.zip_append length]
    rfl
  have sameToken : ∀ first second, (first, second) ∈
      ((Reading.ofText source).lexemes.map Prod.snd).zip
        ((Reading.ofText other).lexemes.map Prod.snd) ++ [(ending, otherEnding)] →
      SameToken tokens others first second := by
    intro first second member
    rw [zipped] at member
    obtain ⟨⟨token, another⟩, paired, positions⟩ := List.mem_map.mp member
    obtain ⟨rfl, rfl⟩ := Prod.mk.inj positions
    exact ⟨token, another, paired, rfl, rfl⟩
  have lexemes : SameLexemes (SameToken tokens others) (Reading.ofText source).lexemes
      (Reading.ofText other).lexemes := by
    refine (sameLexemes_of_map_fst same).imp fun entry another => ?_
    rintro ⟨value, places⟩
    exact ⟨value, sameToken _ _ (List.mem_append_left _ places)⟩
  have outcomes : SameOutcome (SameToken tokens others) (Reading.ofText source).outcome
      (Reading.ofText other).outcome := by
    rw [ends, endsToo]
    exact .ending (sameToken _ _ (List.mem_append_right _ (List.mem_singleton.mpr rfl)))
  rw [parse_eq_follow, parse_eq_follow]
  exact Progress.follow_sameResult lexemes outcomes _

/-- Blanks between tokens are insignificant. Let a text be cut into tokens, and insert blanks
where tokens begin, the end included. Then the new text can be cut into tokens as well, and but
for those of blanks they are the same. It is parsed to the same expressions; and if the text
is no expression, the new one is none for the same cause, at the position of the same token. -/
theorem parse_withInserted {source : String} {tokens : List Token} {inserted : Nat → String}
    (taken : tokenize source false = .ok tokens)
    (blank : ∀ offset, ∀ c ∈ (inserted offset).toList, c ∈ [' ', '\t', '\n', '\r'])
    (between : ∀ offset, inserted offset ≠ "" → ∃ token ∈ tokens, token.position.offset = offset) :
    ∃ others, tokenize (withInserted inserted source) false = .ok others ∧
      (significant others).map (·.content.label) = (significant tokens).map (·.content.label) ∧
      (∀ e, Expr.parse (withInserted inserted source) = .ok e ↔ Expr.parse source = .ok e) ∧
      ∀ failure, Expr.parse source = .error failure →
        ∃ token other, (token, other) ∈ (significant tokens).zip (significant others) ∧
          token.position = failure.position ∧
          Expr.parse (withInserted inserted source) =
            .error ⟨failure.cause, other.position⟩ := by
  have blanks : ∀ offset, ∀ c ∈ (inserted offset).toList, isBlank c = true := by
    intro offset c member
    simpa [isBlank, or_assoc] using blank offset c member
  have handedOut : (TokenStream.ofText source false).remaining = tokens.map .ok :=
    eq_map_ok_of_mapM taken
  have start : (Cursor.ofList (withInserted inserted source).toList).rest =
      [] ++ weave inserted 0 source.toList := String.toList_ofList
  have listed : (Reading.ofText (withInserted inserted source)).Lists
      ((Reading.ofText source).lexemes.map Prod.fst) :=
    TokenStream.lists_weave handedOut rfl blanks (fun offset _ => between offset) (by simp) start
  obtain ⟨ending, ends, _⟩ := contents_of_tokenize taken
  obtain ⟨found, takenAgain, contents⟩ := (lists_iff source false _).mp ⟨rfl, ending, ends⟩
  obtain rfl := Except.ok.inj (takenAgain.symm.trans taken)
  obtain ⟨others, takenToo, contentsToo⟩ := (lists_iff _ false _).mp listed
  have same := sameResult_of_map_fst taken takenToo listed.1.symm
  refine ⟨others, takenToo, ?_, fun e => (same.eq_ok_iff e).symm, ?_⟩
  · have labels := congrArg (List.map Content.label) (contentsToo.trans contents.symm)
    rwa [List.map_map, List.map_map] at labels
  · intro failure failed
    rw [failed] at same
    obtain ⟨place, ⟨token, other, paired, first, rfl⟩, again⟩ := same.exists_of_error
    exact ⟨token, other, paired, first, again⟩

/-- A line break is inserted in front of the blank behind a colon, and a blank in front of the
end, where a brace is missed in both texts. -/
theorem parse_withInserted_missing_brace :
    let inserted := fun offset => if offset = 5 then "\r\n\t" else if offset = 7 then " " else ""
    withInserted inserted "\x7b'a': 1" = "\x7b'a':\r\n\t 1 " ∧
      ∃ others, tokenize "\x7b'a':\r\n\t 1 " false = .ok others ∧
        ∃ token other,
          (token, other) ∈
            (significant (TokenStream.ofText "\x7b'a': 1" false).tokens).zip (significant others) ∧
          token.position = ⟨7, 0, 7⟩ ∧
          Expr.parse "\x7b'a':\r\n\t 1 " = .error ⟨.unexpectedEnd, other.position⟩ := by
  intro inserted
  have woven : withInserted inserted "\x7b'a': 1" = "\x7b'a':\r\n\t 1 " := by decide +kernel
  have taken : tokenize "\x7b'a': 1" false =
      .ok (TokenStream.ofText "\x7b'a': 1" false).tokens := by decide +kernel
  have blank : ∀ offset, ∀ c ∈ (inserted offset).toList, c ∈ [' ', '\t', '\n', '\r'] := by
    intro offset
    by_cases colon : offset = 5
    · simp [inserted, colon]
    · by_cases missing : offset = 7 <;> simp [inserted, colon, missing]
  have between : ∀ offset, inserted offset ≠ "" →
      ∃ token ∈ (TokenStream.ofText "\x7b'a': 1" false).tokens, token.position.offset = offset := by
    intro offset something
    have places : (TokenStream.ofText "\x7b'a': 1" false).tokens.map (·.position.offset) =
        [0, 1, 4, 5, 6, 7] := by decide +kernel
    have place : offset = 5 ∨ offset = 7 := by
      by_contra other
      simp [inserted, not_or.mp other] at something
    apply List.mem_map.mp
    rw [places]
    rcases place with rfl | rfl <;> decide
  obtain ⟨others, again, _, _, failures⟩ := parse_withInserted taken blank between
  obtain ⟨token, other, paired, place, failed⟩ :=
    failures ⟨.unexpectedEnd, ⟨7, 0, 7⟩⟩ (by decide +kernel)
  rw [woven] at again failed
  exact ⟨woven, others, again, token, other, paired, place, failed⟩

end EdgeExpression
