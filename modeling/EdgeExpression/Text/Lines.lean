/-!
# Lines of a text

A line ends with a line feed, or with a carriage return and a line feed. The end of
a line is not part of it, and the last line need not have one. A carriage return
anywhere else belongs to its line.

Where lines are taken from a sequence one at a time, each comes with the line feed that ends it,
and its end is taken off afterwards.
-/
namespace EdgeExpression.Lines

/-- Puts a character in front of the first line, which is a new one if there is none. -/
def prepend {α : Type} (c : α) : List (List α) → List (List α)
  | [] => [[c]]
  | line :: rest => (c :: line) :: rest

/-- The lines of a text. -/
def split : List Char → List (List Char)
  | [] => []
  | '\r' :: '\n' :: rest => [] :: split rest
  | '\n' :: rest => [] :: split rest
  | c :: rest => prepend c (split rest)

/-- The lines of a sequence, each with the feed that ends it. -/
def withEnds {α : Type} [DecidableEq α] (feed : α) : List α → List (List α)
  | [] => []
  | c :: rest => if c = feed then [c] :: withEnds feed rest else prepend c (withEnds feed rest)

/-- A line without its end: the line feed, if it has one, and a carriage return in front of
that. -/
def withoutEnd (line : List Char) : List Char :=
  if line.getLast? = some '\n' then
    if line.dropLast.getLast? = some '\r' then line.dropLast.dropLast else line.dropLast
  else line

/-- The lines of a text, as strings. -/
def ofText (text : String) : List String := (split text.toList).map String.ofList

end EdgeExpression.Lines
