import EdgeExpression.Text.Position

/-!
# Cursors

A cursor is a place in a text from which reading goes on: the text that is left,
and the position where it starts. It moves only forward, by whole characters, and
its position always accounts for every character it has passed.
-/
namespace EdgeExpression

/-- What is left of a text, and where in the text it starts. -/
structure Cursor where
  position : Position
  rest : List Char
deriving Repr, DecidableEq, Inhabited

namespace Cursor

/-- The cursor at the beginning of a text. -/
def ofList (text : List Char) : Cursor := ⟨.origin, text⟩

/-- The cursor `n` characters further on, or at the end of the text if that is nearer. -/
def drop (cursor : Cursor) (n : Nat) : Cursor :=
  ⟨cursor.position.past (cursor.rest.take n), cursor.rest.drop n⟩

/-- Without dropping a character a cursor stays where it is. -/
@[simp] theorem drop_zero (cursor : Cursor) : cursor.drop 0 = cursor := by simp [drop]

/-- What is left behind dropped characters. -/
@[simp] theorem rest_drop (cursor : Cursor) (n : Nat) :
    (cursor.drop n).rest = cursor.rest.drop n := rfl

/-- The cursor behind a leading run of characters of one class. -/
def skip (cursor : Cursor) (p : Char → Bool) : Cursor :=
  cursor.drop (cursor.rest.takeWhile p).length

/-- The text between a cursor and a later one of the same text. -/
def upTo (cursor later : Cursor) : List Char :=
  cursor.rest.take (cursor.rest.length - later.rest.length)

/-- What is left behind skipped characters. -/
@[simp] theorem rest_skip (cursor : Cursor) (p : Char → Bool) :
    (cursor.skip p).rest = cursor.rest.dropWhile p :=
  calc cursor.rest.drop (cursor.rest.takeWhile p).length
    _ = (cursor.rest.takeWhile p ++ cursor.rest.dropWhile p).drop
          (cursor.rest.takeWhile p).length := by rw [List.takeWhile_append_dropWhile]
    _ = cursor.rest.dropWhile p := List.drop_left

end Cursor

/-- The character of a text that starts at a byte offset; none past the end of the
text and none inside a character. -/
def charAt : List Char → Nat → Option Char
  | [], _ => none
  | c :: _, 0 => some c
  | c :: rest, offset => if c.utf8Size ≤ offset then charAt rest (offset - c.utf8Size) else none

end EdgeExpression
