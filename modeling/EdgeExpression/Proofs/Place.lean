import EdgeExpression.Proofs.OwnText
import EdgeExpression.Token.Stream

/-!
# Places in a text

A cursor is in its place when the text it has passed and the text that is left make up the
whole text, and its position is the one behind what it has passed. Reading moves cursors
from place to place, over blanks and over the texts of lexemes only. Each of the three
things that can be seen at a cursor is described here by the text that is passed on the way.

The byte offset of a position is the number of bytes before it, and the character there is
the first one that is left.
-/
namespace EdgeExpression

/-! ## Bytes -/

/-- A text has as many bytes as its first character and the others together. -/
theorem utf8ByteSize_ofList_cons (c : Char) (text : List Char) :
    (String.ofList (c :: text)).utf8ByteSize =
      c.utf8Size + (String.ofList text).utf8ByteSize := by
  rw [← List.singleton_append, String.ofList_append, String.utf8ByteSize_append,
    ← String.singleton_eq_ofList, String.utf8ByteSize_singleton]

namespace Position

/-- A position counts the bytes of all text before it. -/
theorem offset_past (position : Position) (text : List Char) :
    (position.past text).offset = position.offset + (String.ofList text).utf8ByteSize := by
  induction text generalizing position with
  | nil => rfl
  | cons c text induction =>
      have first : (position.next c).offset = position.offset + c.utf8Size := by
        unfold next
        split <;> rfl
      rw [past_cons, induction, first, utf8ByteSize_ofList_cons, Nat.add_assoc]

/-- The offset behind a text is the number of its bytes. -/
theorem offset_origin_past (text : List Char) :
    (origin.past text).offset = (String.ofList text).utf8ByteSize := by
  rw [offset_past]
  exact Nat.zero_add _

/-- Text has bytes, so a position behind some lies behind. -/
theorem offset_lt_past (position : Position) {text : List Char} (nonempty : text ≠ []) :
    position.offset < (position.past text).offset := by
  rw [offset_past]
  have bytes : (String.ofList text).utf8ByteSize ≠ 0 := by
    simpa [String.utf8ByteSize_eq_zero_iff] using nonempty
  omega

/-- Moving past a text never goes back. -/
theorem offset_le_past (position : Position) (text : List Char) :
    position.offset ≤ (position.past text).offset := by
  rw [offset_past]
  exact Nat.le_add_right _ _

end Position

/-- A text stands at a byte offset of a source if that many bytes lie before it. -/
def StandsAt (source : String) (offset : Nat) (text : List Char) : Prop :=
  ∃ before behind, source.toList = before ++ (text ++ behind) ∧
    (String.ofList before).utf8ByteSize = offset

/-- The character at a byte offset is the one that stands there: none is found inside
another one, nor at the end of the source. -/
theorem charAt_eq_some_iff (source : String) (offset : Nat) (c : Char) :
    charAt source.toList offset = some c ↔ StandsAt source offset [c] := by
  unfold StandsAt
  generalize source.toList = text
  constructor
  · intro found
    induction text generalizing offset with
    | nil => cases found
    | cons d text induction =>
        cases offset with
        | zero =>
            obtain rfl : d = c := Option.some.inj found
            exact ⟨[], text, rfl, rfl⟩
        | succ offset =>
            rw [charAt.eq_3 _ _ _ (by omega)] at found
            split at found
            · next inside =>
                obtain ⟨before, behind, rfl, bytes⟩ := induction _ found
                refine ⟨d :: before, behind, rfl, ?_⟩
                rw [utf8ByteSize_ofList_cons, bytes]
                omega
            · cases found
  · rintro ⟨before, behind, rfl, rfl⟩
    induction before with
    | nil => rfl
    | cons d before induction =>
        have positive := d.utf8Size_pos
        rw [utf8ByteSize_ofList_cons, List.cons_append, charAt.eq_3 _ _ _ (by omega),
          if_pos (Nat.le_add_right _ _), Nat.add_sub_cancel_left]
        exact induction

/-- What begins a text stands where the text does. -/
theorem StandsAt.left {source : String} {offset : Nat} {text more : List Char}
    (stands : StandsAt source offset (text ++ more)) : StandsAt source offset text := by
  obtain ⟨before, behind, split, bytes⟩ := stands
  exact ⟨before, more ++ behind, by rw [split, List.append_assoc], bytes⟩

/-! ## What is passed -/

namespace Cursor

/-- A cursor stands in a text behind a part of it: the part and what is left are the text,
and its position is the one behind the part. -/
def HasPassed (cursor : Cursor) (passed text : List Char) : Prop :=
  text = passed ++ cursor.rest ∧ cursor.position = Position.origin.past passed

/-- A cursor is in its place in a text if it stands behind some part of it. -/
def IsWithin (cursor : Cursor) (text : List Char) : Prop :=
  ∃ passed, cursor.HasPassed passed text

/-- From one cursor to another, blanks are passed and then a text. -/
structure Passes (cursor : Cursor) (blanks own : List Char) (behind : Cursor) : Prop where
  text : cursor.rest = blanks ++ (own ++ behind.rest)
  blank : ∀ c ∈ blanks, isBlank c = true
  position : behind.position = (cursor.position.past blanks).past own

variable {cursor behind : Cursor} {blanks own passed text : List Char}

/-- At the beginning of a text nothing has been passed. -/
theorem hasPassed_ofList (text : List Char) : (ofList text).HasPassed [] text := ⟨rfl, rfl⟩

/-- The beginning of a text is within the text. -/
theorem isWithin_ofList (text : List Char) : (ofList text).IsWithin text :=
  ⟨[], hasPassed_ofList text⟩

/-- Nothing is passed where a cursor stays. -/
theorem Passes.refl (cursor : Cursor) : cursor.Passes [] [] cursor := ⟨rfl, by simp, rfl⟩

/-- Whatever is passed is added to what was passed before. -/
theorem Passes.hasPassed (passes : cursor.Passes blanks own behind)
    (before : cursor.HasPassed passed text) :
    behind.HasPassed (passed ++ (blanks ++ own)) text := by
  obtain ⟨split, position⟩ := before
  constructor
  · rw [split, passes.text]
    simp
  · rw [passes.position, position]
    simp [Position.past_append]

/-- Whatever is passed, a cursor stays in its place. -/
theorem Passes.isWithin (passes : cursor.Passes blanks own behind)
    (within : cursor.IsWithin text) : behind.IsWithin text := by
  obtain ⟨passed, before⟩ := within
  exact ⟨_, passes.hasPassed before⟩

/-- What is passed is the text up to the later cursor. -/
theorem Passes.upTo_eq (passes : cursor.Passes blanks own behind) :
    cursor.upTo behind = blanks ++ own := by
  have length : cursor.rest.length - behind.rest.length = (blanks ++ own).length := by
    rw [passes.text]
    simp only [List.length_append]
    omega
  rw [upTo, length, passes.text, ← List.append_assoc, List.take_left]

/-- Blanks that are passed may be taken for the text that is passed behind them. -/
theorem Passes.of_blanks (passes : cursor.Passes blanks [] behind) :
    cursor.Passes [] blanks behind where
  text := passes.text
  blank := by simp
  position := passes.position

/-- The text that is passed behind the blanks stands at the offset behind them. -/
theorem Passes.standsAt {source : String} (passes : cursor.Passes blanks own behind)
    (within : cursor.IsWithin source.toList) :
    StandsAt source (cursor.position.past blanks).offset own := by
  obtain ⟨passed, split, position⟩ := within
  refine ⟨passed ++ blanks, behind.rest, ?_, ?_⟩
  · rw [split, passes.text, List.append_assoc]
  · rw [position, ← Position.past_append, Position.offset_origin_past]

/-- Passing a lexeme never goes back. -/
theorem Passes.offset_le (passes : cursor.Passes blanks own behind) :
    cursor.position.offset ≤ behind.position.offset := by
  rw [passes.position]
  exact Nat.le_trans (Position.offset_le_past _ blanks) (Position.offset_le_past _ own)

/-- The cursor behind a text that stands at a cursor. -/
theorem drop_length (text : cursor.rest = own ++ blanks) :
    cursor.drop own.length = ⟨cursor.position.past own, blanks⟩ := by
  rw [drop, text, List.take_left, List.drop_left]

/-- Skipping characters moves past all that are to be skipped. -/
theorem skip_eq (cursor : Cursor) (p : Char → Bool) :
    cursor.skip p =
      ⟨cursor.position.past (cursor.rest.takeWhile p), cursor.rest.dropWhile p⟩ :=
  drop_length List.takeWhile_append_dropWhile.symm

/-- The blanks at a cursor are passed by skipping them. -/
theorem passes_skip (cursor : Cursor) :
    cursor.Passes (cursor.rest.takeWhile isBlank) [] (cursor.skip isBlank) := by
  rw [skip_eq]
  exact ⟨List.takeWhile_append_dropWhile.symm, List.all_eq_true.mp List.all_takeWhile, rfl⟩

/-! ## What is seen -/

/-- A lexeme is seen exactly if, behind blanks only, a scan finds it there. -/
theorem look_eq_lexeme_iff {value : Lexeme} {start : Position} :
    cursor.look = .lexeme value start behind ↔
      ∃ blanks own, cursor.Passes blanks own behind ∧ start = cursor.position.past blanks ∧
        scan (own ++ behind.rest) = .found value own := by
  have whole : cursor.rest = cursor.rest.takeWhile isBlank ++ cursor.rest.dropWhile isBlank :=
    List.takeWhile_append_dropWhile.symm
  constructor
  · intro seen
    rw [look, skip_eq, lookHere] at seen
    split at seen
    · cases seen
    · split at seen
      · next own found =>
          obtain ⟨rest, split⟩ := scan_read_isPrefix (cursor.rest.dropWhile isBlank)
          rw [found, Scan.read] at split
          rw [drop_length split.symm] at seen
          cases seen
          refine ⟨cursor.rest.takeWhile isBlank, own, ⟨?_, ?_, rfl⟩, rfl, split ▸ found⟩
          · rw [split]
            exact whole
          · exact List.all_eq_true.mp List.all_takeWhile
      · cases seen
  · rintro ⟨blanks, own, ⟨text, blank, position⟩, rfl, found⟩
    have start : ∀ c ∈ (own ++ behind.rest).head?, isBlank c = false := by
      intro c head
      obtain ⟨tail, split⟩ := List.head?_eq_some_iff.mp head
      rw [split] at found
      exact isBlank_of_scan found
    have skipped : cursor.skip isBlank = ⟨cursor.position.past blanks, own ++ behind.rest⟩ := by
      rw [skip_eq, text, takeWhile_run blank start, dropWhile_run blank start]
    have present : own ++ behind.rest ≠ [] := by simp [scan_read_ne_nil found]
    have passed : (⟨cursor.position.past blanks, own ++ behind.rest⟩ : Cursor).drop own.length =
        behind := by
      rw [drop_length rfl, ← position]
    rw [look, skipped, lookHere, if_neg (by simpa using present), found]
    exact congrArg _ passed

/-- Where a lexeme is seen, the text shows the character that every text of it begins
with. -/
theorem charAt_of_look_eq_lexeme {source : String} {value : Lexeme} {start : Position}
    (within : cursor.IsWithin source.toList) (seen : cursor.look = .lexeme value start behind) :
    charAt source.toList start.offset = some value.leadChar := by
  obtain ⟨blanks, own, passes, rfl, found⟩ := look_eq_lexeme_iff.mp seen
  obtain ⟨tail, rfl⟩ := exists_leadChar_of_scan found
  have stands : StandsAt source _ ([value.leadChar] ++ tail) := passes.standsAt within
  rw [charAt_eq_some_iff]
  exact stands.left

/-- The end is seen behind blanks only. -/
theorem of_look_eq_ending (seen : cursor.look = .ending behind) :
    ∃ blanks, cursor.Passes blanks [] behind ∧ behind.rest = [] := by
  rw [look, skip_eq, lookHere] at seen
  split at seen
  · next finished =>
      cases seen
      have empty : cursor.rest.dropWhile isBlank = [] := by simpa using finished
      refine ⟨cursor.rest.takeWhile isBlank, ⟨?_, ?_, rfl⟩, empty⟩
      · exact List.takeWhile_append_dropWhile.symm
      · exact List.all_eq_true.mp List.all_takeWhile
  · split at seen <;> cases seen

/-- A fault is seen where, behind blanks only, a scan is stuck. -/
theorem of_look_eq_fault (seen : cursor.look = .fault behind) :
    ∃ blanks read, cursor.Passes blanks read behind ∧
      scan (read ++ behind.rest) = .stuck read := by
  rw [look, skip_eq, lookHere] at seen
  split at seen
  · cases seen
  · split at seen
    · cases seen
    · next read stuck =>
        obtain ⟨rest, split⟩ := scan_read_isPrefix (cursor.rest.dropWhile isBlank)
        rw [stuck, Scan.read] at split
        rw [drop_length split.symm] at seen
        cases seen
        refine ⟨cursor.rest.takeWhile isBlank, read, ⟨?_, ?_, rfl⟩, split ▸ stuck⟩
        · rw [split]
          exact List.takeWhile_append_dropWhile.symm
        · exact List.all_eq_true.mp List.all_takeWhile

end Cursor
end EdgeExpression
