import EdgeExpression.Text.Decimal

/-!
# Positions in a text

A position says how much text lies before it: the bytes of that text in UTF-8, its
line breaks, and the characters behind the last of them. All three count from zero,
and only the line feed breaks a line.
-/
namespace EdgeExpression

/-- A place in a text, in bytes and in lines and columns. -/
structure Position where
  /-- The bytes before this place. -/
  offset : Nat
  /-- The line feeds before this place. -/
  line : Nat
  /-- The characters between the last line feed before this place and this place. -/
  column : Nat
deriving Repr, DecidableEq, Inhabited

namespace Position

/-- The beginning of every text. -/
def origin : Position := ⟨0, 0, 0⟩

/-- The position behind one more character. -/
def next (position : Position) (c : Char) : Position :=
  if c = '\n' then ⟨position.offset + c.utf8Size, position.line + 1, 0⟩
  else ⟨position.offset + c.utf8Size, position.line, position.column + 1⟩

/-- The position behind more text. -/
def past (position : Position) (text : List Char) : Position := text.foldl next position

/-- Moving past nothing stays in place. -/
@[simp] theorem past_nil (position : Position) : position.past [] = position := rfl

/-- Moving past a text is moving past its first character and then past the others. -/
@[simp] theorem past_cons (position : Position) (c : Char) (text : List Char) :
    position.past (c :: text) = (position.next c).past text := rfl

/-- Moving past a text is moving past its parts one after the other. -/
theorem past_append (position : Position) (first second : List Char) :
    position.past (first ++ second) = (position.past first).past second :=
  List.foldl_append

/-- A position as it is shown: the line, a colon and the column. -/
def text (position : Position) : String :=
  Decimal.ofNat position.line ++ ":" ++ Decimal.ofNat position.column

end Position
end EdgeExpression
