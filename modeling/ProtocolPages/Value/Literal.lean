import ProtocolPages.Value
import ProtocolPages.Number.Shortest
import ProtocolPages.Text.Quoted

/-!
# The text of values

A value has two texts. Its literal shows what it is: texts are quoted, lists stand in square and
objects in curly brackets. Its plain text is what a document prints for it: a text stands for
itself, everything else for its literal. An integer is written with all of its digits, while an
interpreter may refuse to write more than a few thousand; integers that were read from a tree stay
within its limit.
-/

namespace ProtocolPages.Value

mutual

/-- The literal of a value. -/
def literal : Value → String
  | null => "None"
  | boolean b => if b then "True" else "False"
  | integer n => toString n
  | real x => x.toText
  | text s => Text.quoted s
  | list items => "[" ++ String.intercalate ", " (literals items) ++ "]"
  | object fields => "\x7b" ++ String.intercalate ", " (fieldLiterals fields) ++ "\x7d"

/-- The literals of the values in a list. -/
def literals : List Value → List String
  | [] => []
  | v :: rest => literal v :: literals rest

/-- The literals of the fields of an object. -/
def fieldLiterals : List (String × Value) → List String
  | [] => []
  | (key, v) :: rest => (Text.quoted key ++ ": " ++ literal v) :: fieldLiterals rest

end

/-- What a document prints for a value. -/
def plain : Value → String
  | text s => s
  | v => literal v

/-- A text prints as itself. -/
@[simp] theorem plain_text (s : String) : plain (text s) = s := rfl

end ProtocolPages.Value
