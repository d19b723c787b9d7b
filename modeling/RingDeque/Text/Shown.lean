/-!
# Texts of structured values

A `Shown` is a value prepared for showing: a text of its own, a list, a set, a group of arguments or
a record. It is written on one line, or over several lines with one item a line and four blanks for
each level.
-/

namespace RingDeque

/-- A value prepared for showing. -/
inductive Shown where
  /-- A text that stands for itself. -/
  | atom (text : String)
  /-- Items in square brackets. -/
  | list (items : List Shown)
  /-- Items in braces. -/
  | set (items : List Shown)
  /-- Items in parentheses behind a name, which may be empty. -/
  | group (name : String) (items : List Shown)
  /-- Fields in braces behind a name, and whether there are more that are not shown. -/
  | record (name : String) (fields : List Shown) (hasMore : Bool)
  /-- A value with a label, as a field of a record. -/
  | field (label : String) (value : Shown)

namespace Shown

/-- A number. -/
def nat (n : Nat) : Shown :=
  .atom (toString n)

/-- An optional value. -/
def option : Option Shown → Shown
  | none => .atom "None"
  | some value => .group "Some" [value]

mutual

/-- The text on one line. -/
def inline : Shown → String
  | .atom text => text
  | .list items => "[" ++ ", ".intercalate (inlineAll [] items) ++ "]"
  | .set items => "\x7b" ++ ", ".intercalate (inlineAll [] items) ++ "\x7d"
  | .group name items => name ++ "(" ++ ", ".intercalate (inlineAll [] items) ++ ")"
  | .record name fields hasMore =>
    name ++ " \x7b " ++
      ", ".intercalate (inlineAll [] fields ++ if hasMore then [".."] else []) ++ " \x7d"
  | .field label value => label ++ ": " ++ inline value

/-- The texts of several values on one line each, behind those in `earlier`, the latest first. -/
def inlineAll (earlier : List String) : List Shown → List String
  | [] => earlier.reverse
  | item :: items => inlineAll (inline item :: earlier) items

end

/-- The beginning of a line at a level. -/
def margin (level : Nat) : String :=
  "".pushn ' ' (4 * level)

/-- Items between brackets, one a line. Without items the brackets meet. -/
def block (level : Nat) (opening closing : String) (items : List String) (last : List String) :
    String :=
  if items.isEmpty && last.isEmpty then
    opening ++ closing
  else
    opening ++ "\n" ++ String.join (items.map fun item => margin (level + 1) ++ item ++ ",\n") ++
      String.join (last.map fun item => margin (level + 1) ++ item ++ "\n") ++ margin level ++
        closing

mutual

/-- The text over several lines, for a value that stands at `level`. -/
def indented (level : Nat) : Shown → String
  | .atom text => text
  | .list items => block level "[" "]" (indentedAll (level + 1) [] items) []
  | .set items => block level "\x7b" "\x7d" (indentedAll (level + 1) [] items) []
  | .group name items => block level (name ++ "(") ")" (indentedAll (level + 1) [] items) []
  | .record name fields hasMore =>
    block level (name ++ " \x7b") "\x7d" (indentedAll (level + 1) [] fields)
      (if hasMore then [".."] else [])
  | .field label value => label ++ ": " ++ indented level value

/-- The texts of several values over several lines each, behind those in `earlier`, the latest
first. -/
def indentedAll (level : Nat) (earlier : List String) : List Shown → List String
  | [] => earlier.reverse
  | item :: items => indentedAll level (indented level item :: earlier) items

end

/-- The text over several lines. -/
def multiline (shown : Shown) : String :=
  indented 0 shown

end Shown

/-- Values that can be shown with their structure. -/
class Inspect (α : Type u) where
  inspect : α → Shown

/-- Values with a plain text. -/
class Display (α : Type u) where
  display : α → String

export Inspect (inspect)
export Display (display)

instance {α : Type u} {β : Type v} [Inspect α] [Inspect β] : Inspect (α × β) where
  inspect pair := .group "" [inspect pair.1, inspect pair.2]

end RingDeque
