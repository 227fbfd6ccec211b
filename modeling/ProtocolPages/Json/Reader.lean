import ProtocolPages.Ordered
import ProtocolPages.Text.Encoding
import ProtocolPages.Value

/-!
# Reading JSON text

The reader takes the longest valid piece at every place and reports the first place where none
fits. Besides the standard literals it knows `NaN`, `Infinity` and `-Infinity`. Of repeated keys the
last value counts, in the position of the first. Nesting may be of any depth here, while an
interpreter that reads nested values by recursion gives up at a depth of its own.

Every reading function returns what is left of the text, with a proof that something was used up;
the recursion through nested lists and objects rests on it.
-/

namespace ProtocolPages.Json

/-- What is wrong with a text. -/
inductive Complaint where
  /-- The text starts with a byte order mark. -/
  | byteOrderMark
  /-- A value has to stand here. -/
  | value
  /-- A quoted key has to stand here. -/
  | propertyName
  /-- A colon has to follow a key. -/
  | colon
  /-- A comma or the end of the list or object has to follow a value. -/
  | comma
  /-- A text is never closed. -/
  | unterminated
  /-- A control character stands in a text. -/
  | control
  /-- The letter after a backslash means nothing. -/
  | escape
  /-- Four hexadecimal digits have to follow. -/
  | unicodeEscape
  /-- Something follows the value. -/
  | extraData
  deriving DecidableEq, Repr

/-- The wording of a complaint. -/
def Complaint.message : Complaint → String
  | byteOrderMark => "Unexpected UTF-8 BOM (decode using utf-8-sig)"
  | value => "Expecting value"
  | propertyName => "Expecting property name enclosed in double quotes"
  | colon => "Expecting ':' delimiter"
  | comma => "Expecting ',' delimiter"
  | unterminated => "Unterminated string starting at"
  | control => "Invalid control character at"
  | escape => "Invalid \\escape"
  | unicodeEscape => "Invalid \\uXXXX escape"
  | extraData => "Extra data"

/-- Why a text cannot be read. -/
inductive ReadError where
  /-- The text breaks the format at the place from which `remaining` characters are left. -/
  | malformed (complaint : Complaint) (remaining : Nat)
  /-- A whole number has more digits than can be converted. -/
  | integerTooLong
  deriving DecidableEq, Repr

/-- The greatest number of digits of a whole number. -/
def maxIntegerDigits : Nat := 4300

/-- The complaint at the place where `cs` is left. -/
def complain {α : Type} (complaint : Complaint) (cs : List Char) : Except ReadError α :=
  .error (.malformed complaint cs.length)

/-- The characters that may stand between the parts of a text. -/
def isSpace (c : Char) : Bool :=
  c = ' ' || c = '\t' || c = '\n' || c = '\r'

/-- Drop the spaces at the front. -/
def skipSpace (cs : List Char) : List Char :=
  cs.dropWhile isSpace

/-- Dropping spaces never lengthens. -/
theorem length_skipSpace_le (cs : List Char) : (skipSpace cs).length ≤ cs.length :=
  (List.dropWhile_sublist isSpace).length_le

/-- Whether the character is one of the ten digits. -/
def isDigit (c : Char) : Bool :=
  '0' ≤ c && c ≤ '9'

/-- The number that a list of digits writes. -/
def digitsValue (digits : List Char) : Nat :=
  digits.foldl (fun n c => 10 * n + (c.toNat - '0'.toNat)) 0

/-- The value of a hexadecimal digit. -/
def hexValue? (c : Char) : Option Nat :=
  if '0' ≤ c && c ≤ '9' then some (c.toNat - '0'.toNat)
  else if 'a' ≤ c && c ≤ 'f' then some (c.toNat - 'a'.toNat + 10)
  else if 'A' ≤ c && c ≤ 'F' then some (c.toNat - 'A'.toNat + 10)
  else none

/-- The number that a list of hexadecimal digits writes, if they all are digits. -/
def hexDigitsValue? (digits : List Char) : Option Nat :=
  digits.foldlM (fun n c => (hexValue? c).map (16 * n + ·)) 0

/-- The code point of an escape letter other than `u`. -/
def escapeValue? (c : Char) : Option Nat :=
  match c with
  | '"' => some 0x22
  | '\\' => some 0x5C
  | '/' => some 0x2F
  | 'b' => some 0x8
  | 'f' => some 0xC
  | 'n' => some 0xA
  | 'r' => some 0xD
  | 't' => some 0x9
  | _ => none

/-- Scan a text after its opening quote. The result holds the code units and the number of
characters scanned, the closing quote included. `start` is the place of the opening quote. -/
def scanText (start : Nat) : List Char → Except ReadError (List Nat × Nat)
  | [] => .error (.malformed .unterminated start)
  | '"' :: _ => .ok ([], 1)
  | ['\\'] => .error (.malformed .unterminated start)
  | '\\' :: 'u' :: a :: b :: c :: d :: rest =>
    match hexDigitsValue? [a, b, c, d], rest with
    | some unit, _ :: _ => do
      let (units, used) ← scanText start rest
      return (unit :: units, used + 6)
    | _, _ => complain .unicodeEscape ('u' :: a :: b :: c :: d :: rest)
  | '\\' :: 'u' :: rest => complain .unicodeEscape ('u' :: rest)
  | '\\' :: letter :: rest =>
    match escapeValue? letter with
    | some unit => do
      let (units, used) ← scanText start rest
      return (unit :: units, used + 2)
    | none => complain .escape ('\\' :: letter :: rest)
  | c :: rest =>
    if c.toNat < 0x20 then complain .control (c :: rest)
    else do
      let (units, used) ← scanText start rest
      return (c.toNat :: units, used + 1)

/-- Join the halves of escaped pairs; a half that stands alone is kept. -/
def joinPairs : List Nat → List Char
  | [] => []
  | high :: low :: rest =>
    if 0xD800 ≤ high && high < 0xDC00 && 0xDC00 ≤ low && low < 0xE000 then
      Char.ofNat (0x10000 + (high - 0xD800) * 0x400 + (low - 0xDC00)) :: joinPairs rest
    else Text.ofCodePoint high :: joinPairs (low :: rest)
  | [unit] => [Text.ofCodePoint unit]

/-- The parts of a number. -/
structure NumberParts where
  /-- Whether a minus sign stands in front. -/
  negative : Bool
  /-- The digits before the point. -/
  whole : List Char
  /-- The digits after the point, if there is one. -/
  fraction : Option (List Char)
  /-- The sign and the digits of the exponent, if there is one. -/
  exponent : Option (Bool × List Char)

/-- The number of characters that the parts were written with. -/
def NumberParts.width (parts : NumberParts) (signWidth : Nat) : Nat :=
  (if parts.negative then 1 else 0) + parts.whole.length +
    (parts.fraction.map (·.length + 1)).getD 0 +
    (parts.exponent.map (·.2.length + 1 + signWidth)).getD 0

/-- The digits before the point: a zero alone, or digits that start with another one. -/
def scanWhole : List Char → Option (List Char)
  | [] => none
  | c :: rest =>
    if c = '0' then some ['0']
    else if isDigit c then some (c :: rest.takeWhile isDigit)
    else none

/-- The digits after a point, if a point with at least one digit stands here. -/
def scanFraction : List Char → Option (List Char)
  | '.' :: rest =>
    let digits := rest.takeWhile isDigit
    if digits.isEmpty then none else some digits
  | _ => none

/-- The exponent that stands here, if any: whether it is negative, its digits, and the width of
its sign. -/
def scanExponent : List Char → Option (Bool × List Char × Nat)
  | mark :: rest =>
    if mark = 'e' || mark = 'E' then
      let (negative, signWidth) := match rest with
        | '-' :: _ => (true, 1)
        | '+' :: _ => (false, 1)
        | _ => (false, 0)
      let digits := (rest.drop signWidth).takeWhile isDigit
      if digits.isEmpty then none else some (negative, digits, signWidth)
    else none
  | [] => none

/-- The longest number at the front, with the number of its characters. -/
def scanNumber (cs : List Char) : Option (NumberParts × Nat) := do
  let (negative, unsigned) := match cs with
    | '-' :: rest => (true, rest)
    | _ => (false, cs)
  let whole ← scanWhole unsigned
  let afterWhole := unsigned.drop whole.length
  let fraction := scanFraction afterWhole
  let afterFraction := afterWhole.drop ((fraction.map (·.length + 1)).getD 0)
  let exponent := scanExponent afterFraction
  let parts : NumberParts :=
    ⟨negative, whole, fraction, exponent.map fun (sign, digits, _) => (sign, digits)⟩
  return (parts, parts.width ((exponent.map (·.2.2)).getD 0))

/-- The value of a number. Without fraction and exponent it is a whole number. -/
def NumberParts.toValue (parts : NumberParts) : Except ReadError Value :=
  match parts.fraction, parts.exponent with
  | none, none =>
    if maxIntegerDigits < parts.whole.length then .error .integerTooLong
    else
      let n : Int := digitsValue parts.whole
      .ok (.integer (if parts.negative then -n else n))
  | fraction, exponent =>
    let fraction := fraction.getD []
    let shift : Int := match exponent with
      | some (true, digits) => -(digitsValue digits : Int)
      | some (false, digits) => digitsValue digits
      | none => 0
    .ok (.real (.ofDecimal parts.negative (digitsValue (parts.whole ++ fraction))
      (shift - fraction.length)))

/-- The literals and their values. -/
def literals : List (String × Value) :=
  [("null", .null), ("true", .boolean true), ("false", .boolean false), ("NaN", .real .nan),
   ("Infinity", .real (.infinity false)), ("-Infinity", .real (.infinity true))]

/-- The literal at the front, with the number of its characters. -/
def scanLiteral (cs : List Char) : Option (Value × Nat) :=
  (literals.find? fun entry => entry.1.toList.isPrefixOf cs).map fun entry =>
    (entry.2, entry.1.length)

/-- What is left after something was used up. -/
abbrev Rest (cs : List Char) := { rest : List Char // rest.length < cs.length }

/-- Dropping never lengthens. -/
theorem length_drop_le (cs : List Char) (n : Nat) : (cs.drop n).length ≤ cs.length :=
  (List.drop_sublist n cs).length_le

/-- Dropping from the tail leaves less than the whole. -/
theorem length_drop_lt (c : Char) (tail : List Char) (n : Nat) :
    (tail.drop n).length < (c :: tail).length := by
  simp only [List.length_drop, List.length_cons]
  omega

/-- Read a text whose opening quote has been seen and stands before `tail`. -/
def readText (tail : List Char) :
    Except ReadError (String × { rest : List Char // rest.length ≤ tail.length }) := do
  let (units, used) ← scanText (tail.length + 1) tail
  return (String.ofList (joinPairs units), ⟨tail.drop used, length_drop_le tail used⟩)

mutual

/-- Read the value that starts at the front. -/
def readValue (cs : List Char) : Except ReadError (Value × Rest cs) :=
  match hcs : cs with
  | [] => complain .value cs
  | c :: tail =>
    if c = '"' then do
      let (s, rest) ← readText tail
      return (.text s, ⟨rest.val, Nat.lt_succ_of_le rest.property⟩)
    else if c = '[' then
      match hskip : skipSpace tail with
      | ']' :: rest => .ok (.list [], ⟨rest, by
          have := length_skipSpace_le tail
          simp only [hskip, List.length_cons] at this ⊢
          omega⟩)
      | _ => do
        let (items, rest) ← readItems tail
        return (.list items, ⟨rest.val, Nat.lt_succ_of_lt rest.property⟩)
    else if c = '\x7b' then
      match hskip : skipSpace tail with
      | '\x7d' :: rest => .ok (.object [], ⟨rest, by
          have := length_skipSpace_le tail
          simp only [hskip, List.length_cons] at this ⊢
          omega⟩)
      | _ => do
        let (fields, rest) ← readFields [] tail
        return (.object fields, ⟨rest.val, Nat.lt_succ_of_lt rest.property⟩)
    else
      match scanLiteral (c :: tail) with
      | some (v, width) => .ok (v, ⟨tail.drop (width - 1), length_drop_lt c tail _⟩)
      | none =>
        match scanNumber (c :: tail) with
        | some (parts, width) => do
          return (← parts.toValue, ⟨tail.drop (width - 1), length_drop_lt c tail _⟩)
        | none => complain .value (c :: tail)
termination_by (cs.length, 0)
decreasing_by all_goals (subst hcs; simp only [List.length_cons]; omega)

/-- Read the items of a list up to and including its end. -/
def readItems (cs : List Char) : Except ReadError (List Value × Rest cs) := do
  have hspace := length_skipSpace_le cs
  let (item, ⟨rest, hrest⟩) ← readValue (skipSpace cs)
  have hnext := length_skipSpace_le rest
  match hskip : skipSpace rest with
  | ']' :: rest => return ([item], ⟨rest, by
      simp only [hskip, List.length_cons] at hnext
      omega⟩)
  | ',' :: rest =>
    have hless : rest.length < cs.length := by
      simp only [hskip, List.length_cons] at hnext
      omega
    let (items, ⟨rest, hrest⟩) ← readItems rest
    return (item :: items, ⟨rest, Nat.lt_trans hrest hless⟩)
  | other => complain .comma other
termination_by (cs.length, 1)
decreasing_by all_goals omega

/-- Read the fields of an object up to and including its end, after the fields `before`. -/
def readFields (before : List (String × Value)) (cs : List Char) :
    Except ReadError (List (String × Value) × Rest cs) := do
  have hspace := length_skipSpace_le cs
  match hkey : skipSpace cs with
  | '"' :: tail =>
    have htail : tail.length < cs.length := by
      simp only [hkey, List.length_cons] at hspace
      omega
    let (key, ⟨rest, hrest⟩) ← readText tail
    have hcolon := length_skipSpace_le rest
    match hskip : skipSpace rest with
    | ':' :: rest =>
      have hvalue := length_skipSpace_le rest
      let (v, ⟨rest, hrest⟩) ← readValue (skipSpace rest)
      have hnext := length_skipSpace_le rest
      let fields := Ordered.put (· == ·) key v before
      match hend : skipSpace rest with
      | '\x7d' :: rest => return (fields, ⟨rest, by
          simp only [hskip, hend, List.length_cons] at *
          omega⟩)
      | ',' :: rest =>
        have hless : rest.length < cs.length := by
          simp only [hskip, hend, List.length_cons] at *
          omega
        let (fields, ⟨rest, hrest⟩) ← readFields fields rest
        return (fields, ⟨rest, Nat.lt_trans hrest hless⟩)
      | other => complain .comma other
    | other => complain .colon other
  | other => complain .propertyName other
termination_by (cs.length, 1)
decreasing_by all_goals (simp only [hskip, List.length_cons] at *; omega)

end

/-- Read a whole text as one value. -/
def read (text : String) : Except ReadError Value := do
  let cs := text.toList
  match cs with
  | '\uFEFF' :: _ => complain .byteOrderMark cs
  | _ =>
    let (v, rest) ← readValue (skipSpace cs)
    match skipSpace rest.val with
    | [] => return v
    | extra => complain .extraData extra

/-- The line, counted from one, on which the last `remaining` characters of a text start. -/
def lineAt (text : String) (remaining : Nat) : Nat :=
  let cs := text.toList
  (cs.take (cs.length - remaining)).count '\n' + 1

end ProtocolPages.Json
