import EdgeExpression.Proofs.Faults
import EdgeExpression.Proofs.SourceMap
import Mathlib.Data.List.DropRight

/-!
# Positions count the text before them

A token stream carries its position along from character to character and never looks back.
Still, wherever calls may have left it, also those that failed in the middle of a lexeme, its
position says exactly what the text before it says: how many bytes it has, how many line
feeds, and how many characters follow the last of them. So does the position of every token
and of every error that is handed out.

The text is only ever cut between two characters. What a token carries, and the text that it
records, are pieces of the source between the places before and behind the call.
-/
namespace EdgeExpression

/-! ## Bytes, lines and columns -/

namespace Position

/-- A position counts a text if its offset is the number of bytes of the text, its line the
number of line feeds in it, and its column the number of characters behind the last one. -/
structure Counts (position : Position) (before : List Char) : Prop where
  offset : position.offset = (String.ofList before).utf8ByteSize
  line : position.line = before.count '\n'
  column : position.column = (before.rtakeWhile (· != '\n')).length

variable {position : Position} {before : List Char}

/-- One more character is counted: a line feed begins a new line, and any other character
takes one column, however many bytes it has. -/
theorem Counts.next (counts : position.Counts before) (c : Char) :
    (position.next c).Counts (before ++ [c]) := by
  have bytes : position.offset + c.utf8Size = (String.ofList (before ++ [c])).utf8ByteSize := by
    rw [counts.offset, String.ofList_append, String.utf8ByteSize_append,
      ← String.singleton_eq_ofList, String.utf8ByteSize_singleton]
  by_cases feed : c = '\n'
  · subst feed
    refine ⟨bytes, ?_, ?_⟩
    · simp [Position.next, counts.line]
    · simp [Position.next]
  · rw [Position.next, if_neg feed]
    refine ⟨bytes, ?_, ?_⟩
    · simp [counts.line, feed]
    · simp [counts.column, feed]

/-- The position behind a text counts it. -/
theorem counts_past (before : List Char) : (origin.past before).Counts before := by
  induction before using List.reverseRecOn with
  | nil => exact ⟨rfl, rfl, rfl⟩
  | append_singleton before c induction =>
      rw [past_append]
      exact induction.next c

/-- A text is counted by one position only. -/
theorem counts_iff : position.Counts before ↔ position = origin.past before := by
  constructor
  · intro counts
    have other := counts_past before
    rcases position with ⟨offset, line, column⟩
    obtain rfl : offset = _ := counts.offset.trans other.offset.symm
    obtain rfl : line = _ := counts.line.trans other.line.symm
    obtain rfl : column = _ := counts.column.trans other.column.symm
    rfl
  · rintro rfl
    exact counts_past before

/-- A position is one of a source if it counts some text that the source begins with. -/
def IsIn (position : Position) (source : String) : Prop :=
  ∃ before behind, source.toList = before ++ behind ∧ position.Counts before

/-- The offset of a position of a source lies between two of its characters. -/
theorem IsIn.isValid {source : String} (inside : position.IsIn source) :
    String.Pos.Raw.IsValid source ⟨position.offset⟩ := by
  obtain ⟨before, behind, split, counts⟩ := inside
  refine String.Pos.Raw.isValid_iff_exists_append.mpr
    ⟨String.ofList before, String.ofList behind, ?_, ?_⟩
  · rw [← String.ofList_append, ← split, String.ofList_toList]
  · rw [counts.offset]
    rfl

/-- No place in a source lies behind its end. -/
theorem IsIn.offset_le {source : String} (inside : position.IsIn source) :
    position.offset ≤ source.utf8ByteSize := by
  obtain ⟨before, behind, split, counts⟩ := inside
  have whole : source = String.ofList before ++ String.ofList behind := by
    rw [← String.ofList_append, ← split, String.ofList_toList]
  rw [counts.offset, whole, String.utf8ByteSize_append]
  exact Nat.le_add_right _ _

end Position

/-- A cursor keeps its place in a source: what is left is the source without the text that
its position counts. Hence its offset is one of the source, and between two characters. -/
structure Cursor.KeepsPlace (cursor : Cursor) (source : String) : Prop where
  counts : ∃ before, source.toList = before ++ cursor.rest ∧ cursor.position.Counts before
  inside : cursor.position.offset ≤ source.utf8ByteSize
  boundary : String.Pos.Raw.IsValid source ⟨cursor.position.offset⟩

/-- A cursor within a source keeps its place there. -/
theorem Cursor.IsWithin.keepsPlace {cursor : Cursor} {source : String}
    (within : cursor.IsWithin source.toList) : cursor.KeepsPlace source := by
  obtain ⟨before, split, position⟩ := within
  have counts := Position.counts_iff.mpr position
  have inside : cursor.position.IsIn source := ⟨before, cursor.rest, split, counts⟩
  exact ⟨⟨before, split, counts⟩, inside.offset_le, inside.isValid⟩

/-! ## What is cut from the source -/

/-- What a lexeme carries is a piece of each of its texts. -/
theorem Lexeme.Written.exists_cargo {lexeme : Lexeme} {text : List Char}
    (written : lexeme.Written text) :
    ∃ left right, text = left ++ (lexeme.cargo.toList ++ right) := by
  cases lexeme with
  | literal content =>
      rcases written with rfl | ⟨_, rfl⟩
      · exact ⟨['\'', '\'', '\''], ['\'', '\'', '\''], by simp [Lexeme.cargo]⟩
      · exact ⟨['\''], ['\''], by simp [Lexeme.cargo]⟩
  | call callee => exact ⟨['$'], ['('], written⟩
  | «variable» name => exact ⟨['$', '('], [')'], written⟩
  | member owner => exact ⟨['$', '('], ['{'], written⟩
  | _ => exact ⟨[], [], by rw [List.nil_append, List.append_nil]; exact written⟩

/-- What a token carries is a piece of the text that it stands for. -/
theorem Content.StandsFor.exists_cargo {content : Content} {blanks own : List Char}
    (stands : content.StandsFor blanks own) :
    ∃ left right, own = left ++ (content.cargo.toList ++ right) := by
  cases content with
  | lexeme value =>
      obtain ⟨_, written⟩ : own ≠ [] ∧ value.Written own := stands
      exact written.exists_cargo
  | space run =>
      obtain ⟨_, _, rfl, _⟩ : own ≠ [] ∧ _ := stands
      exact ⟨[], [], by simp [Content.cargo]⟩
  | ending =>
      obtain rfl : own = [] := stands
      exact ⟨[], [], rfl⟩

/-- A token is cut from a part of a source: what it carries stands inside the part, and the
text that it records, if it does, is all of the part. -/
def Token.IsCutFrom (token : Token) (source : String) (start stop : Nat) : Prop :=
  (∃ offset, start ≤ offset ∧ offset + token.content.cargo.utf8ByteSize ≤ stop ∧
    StandsAt source offset token.content.cargo.toList) ∧
  ∀ raw, token.raw = some raw →
    start + raw.utf8ByteSize = stop ∧ StandsAt source start raw.toList

/-- A text that is passed ends as many bytes further on. -/
theorem Cursor.Passes.offset_eq {cursor behind : Cursor} {blanks own : List Char}
    (passes : cursor.Passes blanks own behind) :
    behind.position.offset = cursor.position.offset + (String.ofList blanks).utf8ByteSize +
      (String.ofList own).utf8ByteSize := by
  rw [passes.position, Position.offset_past, Position.offset_past]

namespace TokenStream

variable {stream after : TokenStream}

/-- A token that is pulled from a stream in its place is cut from the text that is passed. -/
theorem IsPlaced.isCutFrom {token : Token} (placed : stream.IsPlaced)
    (pulled : stream.pull = (.ok token, after)) :
    token.position.IsIn stream.source ∧
      token.IsCutFrom stream.source stream.cursor.position.offset after.cursor.position.offset := by
  obtain ⟨blanks, own, passes, shape, stands, _⟩ := pull_token pulled
  obtain ⟨before, split, position⟩ := placed
  have text : stream.source.toList = before ++ (blanks ++ own ++ after.cursor.rest) := by
    rw [split, passes.text, List.append_assoc]
  have start : (String.ofList before).utf8ByteSize = stream.cursor.position.offset := by
    rw [position, Position.offset_origin_past]
  refine ⟨⟨before ++ blanks, own ++ after.cursor.rest, by simp [text], ?_⟩, ?_, ?_⟩
  · rw [shape, Position.counts_iff, Position.past_append, ← position]
    rfl
  · obtain ⟨left, right, rfl⟩ := stands.exists_cargo
    refine ⟨(String.ofList (before ++ blanks ++ left)).utf8ByteSize, ?_, ?_,
      before ++ blanks ++ left, right ++ after.cursor.rest, by simp [text], rfl⟩
    · simp only [String.ofList_append, String.utf8ByteSize_append]
      omega
    · rw [passes.offset_eq]
      simp only [String.ofList_append, String.utf8ByteSize_append, String.ofList_toList]
      omega
  · intro raw recorded
    have taken : raw = String.ofList (blanks ++ own) := by
      rw [shape, TokenStream.token, passes.upTo_eq] at recorded
      split at recorded
      · exact (Option.some.inj recorded).symm
      · cases recorded
    refine ⟨?_, before, after.cursor.rest, by rw [text, taken, String.toList_ofList], start⟩
    rw [taken, passes.offset_eq, String.ofList_append, String.utf8ByteSize_append]
    omega

/-- An error that is pulled lies where the stream is left. -/
theorem position_of_pull_error {error : LexError} (pulled : stream.pull = (.error error, after)) :
    error.position = after.cursor.position := by
  rcases pull_cases stream with ⟨_, _, blanks⟩ | ⟨_, behindBlanks⟩
  · cases (Prod.mk.inj (blanks.symm.trans pulled)).1
  · rw [behindBlanks, pullBehindBlanks] at pulled
    split at pulled
    · cases (Prod.mk.inj pulled).1
    · cases (Prod.mk.inj pulled).1
    · obtain ⟨same, rfl⟩ := Prod.mk.inj pulled
      obtain rfl := Except.error.inj same
      exact LexError.position_stoppedAt _

end TokenStream

/-- Whatever calls are made on a text, in any order and also after errors, the stream keeps its
place in the text. One more call never moves it back. If the call hands out an error or a
token, its position is one of the text as well, and the token is cut from the part of the
text that is passed. -/
theorem calls_keep_place (source : String) (mapped : Bool) (calls : List Call) :
    (TokenStream.afterCalls source mapped calls).cursor.KeepsPlace source ∧
    ∀ call result after,
      (TokenStream.afterCalls source mapped calls).answer call = (result, after) →
      (TokenStream.afterCalls source mapped calls).cursor.position.offset ≤
        after.cursor.position.offset ∧
      (∀ error, result = some (.error error) → error.position.IsIn source) ∧
      ∀ token, result = some (.ok token) → token.position.IsIn source ∧
        token.IsCutFrom source
          (TokenStream.afterCalls source mapped calls).cursor.position.offset
          after.cursor.position.offset := by
  obtain ⟨placed, same⟩ := TokenStream.isPlaced_afterCalls source mapped calls
  generalize TokenStream.afterCalls source mapped calls = stream at placed same
  subst same
  refine ⟨Cursor.IsWithin.keepsPlace placed, ?_⟩
  intro call result after answered
  have passes := (stream.answer_passes call).1
  rw [answered] at passes
  obtain ⟨blanks, own, passes⟩ := passes
  refine ⟨passes.offset_le, ?_, ?_⟩
  · rintro error rfl
    obtain ⟨behind, ended, pulled, rfl⟩ := TokenStream.pull_of_answer answered
    obtain ⟨before, split, position⟩ := placed.pull pulled
    rw [(TokenStream.pull_passes pulled).2.1] at split
    refine ⟨before, behind.cursor.rest, split, ?_⟩
    rw [TokenStream.position_of_pull_error pulled, position]
    exact Position.counts_past before
  · rintro token rfl
    obtain ⟨behind, ended, pulled, rfl⟩ := TokenStream.pull_of_answer answered
    have cut := placed.isCutFrom pulled
    exact cut

/-- A line feed inside a literal begins a new line, and a letter of two bytes takes one column.
Behind an equals sign that no second one follows, reading goes on with the end. -/
theorem calls_keep_place_behind_fault :
    (TokenStream.afterCalls "'é\n' =" true [.pull, .pull]).cursor.KeepsPlace "'é\n' =" ∧
      ∃ token after,
        (TokenStream.afterCalls "'é\n' =" true [.pull, .pull]).answer .next =
          (some (.ok token), after) ∧
        token.position = ⟨7, 1, 3⟩ ∧ token.position.IsIn "'é\n' =" := by
  obtain ⟨place, each⟩ := calls_keep_place "'é\n' =" true [.pull, .pull]
  have answered : (TokenStream.afterCalls "'é\n' =" true [.pull, .pull]).answer .next =
      (some (.ok ⟨.ending, ⟨7, 1, 3⟩, some ""⟩),
        ⟨"'é\n' =", true, ⟨⟨7, 1, 3⟩, []⟩, false, true⟩) := by decide +kernel
  obtain ⟨_, _, tokens⟩ := each _ _ _ answered
  exact ⟨place, _, _, answered, rfl, (tokens _ rfl).1⟩

end EdgeExpression
