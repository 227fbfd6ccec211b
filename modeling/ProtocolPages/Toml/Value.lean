import ProtocolPages.Number.Binary64

/-!
# TOML values

The values of a settings file. Dates and times are kept as they are written.
-/

namespace ProtocolPages.Toml

/-- A value of a settings file. -/
inductive Value where
  /-- A text. -/
  | text (s : String)
  /-- A whole number. -/
  | integer (n : Int)
  /-- A number with a fraction or an exponent. -/
  | float (x : Binary64)
  /-- A truth value. -/
  | boolean (b : Bool)
  /-- A date with a time of day. -/
  | dateTime (spelling : String)
  /-- A date. -/
  | date (spelling : String)
  /-- A time of day. -/
  | time (spelling : String)
  /-- A list of values. -/
  | array (items : List Value)
  /-- Named values, in the order in which they were written. -/
  | table (entries : List (String × Value))
  deriving Repr, Inhabited

/-- A table: named values in order. -/
abbrev Table := List (String × Value)

/-- The word that messages use for the kind of a value. -/
def Value.kindName : Value → String
  | text _ => "str"
  | integer _ => "int"
  | float _ => "float"
  | boolean _ => "bool"
  | dateTime _ => "datetime"
  | date _ => "date"
  | time _ => "time"
  | array _ => "list"
  | table _ => "dict"

/-- Whether the value is a list or a table, which nothing outside it may extend. -/
def Value.isComposite : Value → Bool
  | array _ => true
  | table _ => true
  | _ => false

/-- Why a settings file cannot be read. -/
inductive ReadError where
  /-- The text breaks the format. -/
  | malformed
  /-- A whole number has more digits than can be converted. -/
  | integerTooLong
  deriving DecidableEq, Repr

end ProtocolPages.Toml
