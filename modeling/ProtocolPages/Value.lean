import ProtocolPages.Number.Binary64

/-!
# Values

The values that a parse tree is made of. A tree is not checked in every place, so names, types and
tags may turn out to be any value; this type is what they are held in until a use decides.
-/

namespace ProtocolPages

/-- A structured value. The fields of an object keep the order in which they were written. -/
inductive Value where
  /-- No value. -/
  | null
  /-- A truth value. -/
  | boolean (b : Bool)
  /-- A whole number of any size. -/
  | integer (n : Int)
  /-- A number written with a fraction or an exponent. -/
  | real (x : Binary64)
  /-- A text. -/
  | text (s : String)
  /-- A list of values. -/
  | list (items : List Value)
  /-- Named values, in order. -/
  | object (fields : List (String × Value))
  deriving Repr, Inhabited

namespace Value

/-- The word that messages use for the kind of a value. -/
def kindName : Value → String
  | null => "NoneType"
  | boolean _ => "bool"
  | integer _ => "int"
  | real _ => "float"
  | text _ => "str"
  | list _ => "list"
  | object _ => "dict"

/-- Whether the value says nothing: no value, false, zero, or empty. -/
def isVacant : Value → Bool
  | null => true
  | boolean b => !b
  | integer n => n == 0
  | real x => x.isZero
  | text s => s.isEmpty
  | list items => items.isEmpty
  | object fields => fields.isEmpty

/-- The value of a field, if the value is an object that has it. -/
def field? (key : String) : Value → Option Value
  | object fields => fields.lookup key
  | _ => none

/-- The text itself, if the value is one. -/
def text? : Value → Option String
  | text s => some s
  | _ => none

/-- A value that says nothing is replaced by the empty text. -/
def orEmpty (v : Value) : Value :=
  if v.isVacant then text "" else v

/-- Whether the value can serve as a key: lists and objects cannot. -/
def isKey : Value → Bool
  | list _ => false
  | object _ => false
  | _ => true

/-- The whole number that a value counts as, if any; truth values count as one and zero. -/
def count? : Value → Option Int
  | boolean b => some (if b then 1 else 0)
  | integer n => some n
  | _ => none

/-- Whether two values are the same key. Numbers are compared by what they amount to, whatever their
kind, and an undefined number is the same as itself. -/
def sameKey : Value → Value → Bool
  | null, null => true
  | text s, text t => s == t
  | real x, real y => x == y || (x.isZero && y.isZero)
  | real x, v => v.count?.any x.equalsInt
  | u, real y => u.count?.any y.equalsInt
  | u, v =>
    match u.count?, v.count? with
    | some m, some n => m == n
    | _, _ => false

end Value

end ProtocolPages
