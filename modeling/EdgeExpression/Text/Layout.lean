/-!
# Values laid out over lines

A structured value is shown as an outline: every part of a compound value stands on
lines of its own, four columns further to the right than the value, and ends with a
comma. A list without items keeps to one line.
-/
namespace EdgeExpression

/-- The outline of a value. -/
inductive Layout where
  /-- Text that is shown as it is, on one line. -/
  | atom (text : String)
  /-- A named value with one part, in parentheses. -/
  | wrapped (name : String) (inner : Layout)
  /-- A named value with named fields, in braces. -/
  | record (name : String) (fields : List (String × Layout))
  /-- Items in brackets. -/
  | list (items : List Layout)
deriving Repr, Inhabited

namespace Layout

/-- The beginning of a line at a level of indentation. -/
def margin (level : Nat) : String := String.ofList (List.replicate (4 * level) ' ')

mutual

/-- The text of an outline whose first line has begun at a level of indentation. -/
def render (level : Nat) : Layout → String
  | .atom text => text
  | .wrapped name inner =>
      name ++ "(\n" ++ margin (level + 1) ++ inner.render (level + 1) ++ ",\n" ++
        margin level ++ ")"
  | .record name fields =>
      name ++ " \x7b\n" ++ renderFields (level + 1) fields ++ margin level ++ "\x7d"
  | .list [] => "[]"
  | .list (item :: items) =>
      "[\n" ++ renderItems (level + 1) (item :: items) ++ margin level ++ "]"
termination_by structural layout => layout

/-- The lines of fields at a level of indentation. -/
def renderFields (level : Nat) : List (String × Layout) → String
  | [] => ""
  | (name, value) :: rest =>
      margin level ++ name ++ ": " ++ value.render level ++ ",\n" ++ renderFields level rest
termination_by structural fields => fields

/-- The lines of items at a level of indentation. -/
def renderItems (level : Nat) : List Layout → String
  | [] => ""
  | item :: rest => margin level ++ item.render level ++ ",\n" ++ renderItems level rest
termination_by structural items => items

end

end Layout
end EdgeExpression
