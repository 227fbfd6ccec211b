import ProtocolPages.Json.Reader
import ProtocolPages.Toml.Value

/-!
# Parts of a settings file

Texts, numbers, dates, times and the space between them. Every scanner looks at the characters in
front of it and says how many belong to what it found.
-/

namespace ProtocolPages.Toml

/-- The control characters: those below the space, and the delete character. -/
def isControl (c : Char) : Bool :=
  c.toNat < 0x20 || c.toNat = 0x7F

/-- Whether a character cannot stand in a text on one line or in a comment. -/
def isIllegal (c : Char) : Bool :=
  isControl c && c != '\t'

/-- Whether a character cannot stand in a text over several lines. -/
def isIllegalInLines (c : Char) : Bool :=
  isIllegal c && c != '\n'

/-- A space or a tab. -/
def isSpace (c : Char) : Bool :=
  c = ' ' || c = '\t'

/-- A space, a tab or a line feed. -/
def isSpaceOrLine (c : Char) : Bool :=
  isSpace c || c = '\n'

/-- Drop the spaces and tabs at the front. -/
def skipSpace (cs : List Char) : List Char :=
  cs.dropWhile isSpace

/-- Dropping spaces never lengthens. -/
theorem length_skipSpace_le (cs : List Char) : (skipSpace cs).length ≤ cs.length :=
  (List.dropWhile_sublist isSpace).length_le

/-- What follows the first character behind the spaces is shorter. -/
theorem length_lt_of_skipSpace {cs rest : List Char} {c : Char} (h : skipSpace cs = c :: rest) :
    rest.length < cs.length := by
  have hspace := length_skipSpace_le cs
  rw [h, List.length_cons] at hspace
  exact hspace

/-- The width of spaces, line feeds and comments at the front. -/
def fillerWidth (inComment : Bool) : List Char → Except ReadError Nat
  | [] => .ok 0
  | c :: rest =>
    if c = '\n' then return (← fillerWidth false rest) + 1
    else if inComment then
      if isIllegal c then .error .malformed else return (← fillerWidth true rest) + 1
    else if isSpace c then return (← fillerWidth false rest) + 1
    else if c = '#' then return (← fillerWidth true rest) + 1
    else .ok 0

/-- Drop spaces, line feeds and comments at the front. -/
def skipFiller (cs : List Char) :
    Except ReadError { rest : List Char // rest.length ≤ cs.length } := do
  let width ← fillerWidth false cs
  return ⟨cs.drop width, Json.length_drop_le cs width⟩

/-- A character given by the digits of its code point. -/
def escapedChar? (digits : List Char) : Option Char := do
  let n ← Json.hexDigitsValue? digits
  if n < 0xD800 || (0xE000 ≤ n && n < 0x110000) then some (Char.ofNat n) else none

/-- The character of an escape letter without digits. -/
def simpleEscape? (c : Char) : Option Char :=
  match c with
  | 'b' => some '\x08'
  | 't' => some '\t'
  | 'n' => some '\n'
  | 'f' => some '\x0c'
  | 'r' => some '\r'
  | '"' => some '"'
  | '\\' => some '\\'
  | _ => none

/-- The escape after a backslash: its character and its width. -/
def scanEscape? : List Char → Option (Char × Nat)
  | 'u' :: rest => if rest.length < 4 then none else (escapedChar? (rest.take 4)).map (·, 5)
  | 'U' :: rest => if rest.length < 8 then none else (escapedChar? (rest.take 8)).map (·, 9)
  | c :: _ => (simpleEscape? c).map (·, 1)
  | [] => none

/-- Put a character in front of a scanned text and count the characters it was written with. -/
def prepend (c : Char) (width : Nat) (scanned : List Char × Nat) : List Char × Nat :=
  (c :: scanned.1, width + scanned.2)

/-- Scan a text in double quotes on one line, after its opening quote. `skip` characters in front
belong to an escape that has been read. -/
def scanBasic (skip : Nat) : List Char → Except ReadError (List Char × Nat)
  | [] => .error .malformed
  | c :: rest =>
    match skip with
    | skip + 1 => scanBasic skip rest
    | 0 =>
      if c = '"' then .ok ([], 1)
      else if c = '\\' then
        match scanEscape? rest with
        | some (escaped, width) => return prepend escaped (width + 1) (← scanBasic width rest)
        | none => .error .malformed
      else if isIllegal c then .error .malformed
      else return prepend c 1 (← scanBasic 0 rest)

/-- What a scan over several lines is doing. -/
inductive LinesMode where
  /-- Reading characters. -/
  | plain
  /-- Passing over the given number of characters of an escape. -/
  | skip (n : Nat)
  /-- Looking for the end of a line after a backslash. -/
  | toLineEnd
  /-- Passing over the blank start of the lines after a backslash. -/
  | blanks
  deriving DecidableEq

/-- Count a character that adds nothing to a scanned text. -/
def pass (scanned : List Char × Nat) : List Char × Nat :=
  (scanned.1, scanned.2 + 1)

/-- Scan a text in three double quotes, after its opening quotes. A backslash at the end of a line
takes the line end and the blanks after it away. -/
def scanBasicLines (mode : LinesMode) : List Char → Except ReadError (List Char × Nat)
  | [] => .error .malformed
  | c :: rest =>
    match mode with
    | .skip (n + 1) => scanBasicLines (.skip n) rest
    | .toLineEnd =>
      if c = '\n' then return pass (← scanBasicLines .blanks rest)
      else if isSpace c then return pass (← scanBasicLines .toLineEnd rest)
      else .error .malformed
    | mode =>
      if mode = .blanks && isSpaceOrLine c then
        return pass (← scanBasicLines .blanks rest)
      else if c = '"' then
        match rest with
        | '"' :: '"' :: _ => .ok ([], 3)
        | _ => return prepend c 1 (← scanBasicLines .plain rest)
      else if c = '\\' then
        match rest with
        | d :: _ =>
          if isSpaceOrLine d then return pass (← scanBasicLines .toLineEnd rest)
          else
            match scanEscape? rest with
            | some (escaped, width) =>
              return prepend escaped (width + 1) (← scanBasicLines (.skip width) rest)
            | none => .error .malformed
        | [] => .error .malformed
      else if isIllegalInLines c then .error .malformed
      else return prepend c 1 (← scanBasicLines .plain rest)

/-- Scan a text in single quotes on one line, after its opening quote. -/
def scanLiteral : List Char → Except ReadError (List Char × Nat)
  | [] => .error .malformed
  | c :: rest =>
    if c = '\'' then .ok ([], 1)
    else if isIllegal c then .error .malformed
    else return prepend c 1 (← scanLiteral rest)

/-- Scan a text in three single quotes, after its opening quotes. -/
def scanLiteralLines : List Char → Except ReadError (List Char × Nat)
  | [] => .error .malformed
  | c :: rest =>
    match c, rest with
    | '\'', '\'' :: '\'' :: _ => .ok ([], 3)
    | c, rest =>
      if isIllegalInLines c then .error .malformed
      else return prepend c 1 (← scanLiteralLines rest)

/-- The quotes, at most two, that stand directly after the closing quotes and belong to the text. -/
def extraQuotes (quote : Char) (cs : List Char) : Nat :=
  ((cs.take 2).takeWhile (· == quote)).length

/-- Scan a text over several lines after its opening quotes. A line feed right after them is left
out. -/
def scanLines (quote : Char) (cs : List Char) : Except ReadError (List Char × Nat) := do
  let (body, first) := match cs with
    | '\n' :: rest => (rest, 1)
    | _ => (cs, 0)
  let (content, width) ← if quote = '"' then scanBasicLines .plain body else scanLiteralLines body
  let extra := extraQuotes quote (body.drop width)
  return (content ++ List.replicate extra quote, first + width + extra)

/-- Scan a text after its first quote. -/
def scanText (quote : Char) (rest : List Char) : Except ReadError (String × Nat) := do
  match rest with
  | a :: b :: inner =>
    if a = quote && b = quote then
      let (content, width) ← scanLines quote inner
      return (String.ofList content, width + 2)
    else
      let (content, width) ← if quote = '"' then scanBasic 0 rest else scanLiteral rest
      return (String.ofList content, width)
  | _ =>
    let (content, width) ← if quote = '"' then scanBasic 0 rest else scanLiteral rest
    return (String.ofList content, width)

/-- Scan a text on one line after its opening quote. -/
def scanLineText (quote : Char) (rest : List Char) : Except ReadError (String × Nat) := do
  let (content, width) ← if quote = '"' then scanBasic 0 rest else scanLiteral rest
  return (String.ofList content, width)

/-- The width of the digits that may follow a digit: single underscores may stand between them. -/
def moreDigits (digit : Char → Bool) : List Char → Nat
  | [] => 0
  | '_' :: d :: rest => if digit d then moreDigits digit rest + 2 else 0
  | d :: rest => if digit d then moreDigits digit rest + 1 else 0

/-- The width of digits at the front; zero if there are none. -/
def digitsWidth (digit : Char → Bool) : List Char → Nat
  | [] => 0
  | d :: rest => if digit d then moreDigits digit rest + 1 else 0

/-- Whether the character is a hexadecimal digit. -/
def isHexDigit (c : Char) : Bool :=
  (Json.hexValue? c).isSome

/-- The number that digits of a base write; underscores are passed over. -/
def baseValue (base : Nat) (digits : List Char) : Nat :=
  digits.foldl (fun n c => if c = '_' then n else base * n + (Json.hexValue? c).getD 0) 0

/-- A whole number with the mark of a base in front: its value and its width. -/
def scanBased? : List Char → Option (Value × Nat)
  | '0' :: mark :: rest =>
    let (base, digit) : Nat × (Char → Bool) := match mark with
      | 'x' => (16, isHexDigit)
      | 'o' => (8, fun c => '0' ≤ c && c ≤ '7')
      | 'b' => (2, fun c => c = '0' || c = '1')
      | _ => (0, fun _ => false)
    let width := digitsWidth digit rest
    if width = 0 then none
    else some (.integer (baseValue base (rest.take width)), width + 2)
  | _ => none

/-- The width of a decimal number before its fraction: a zero alone, or digits that start with
another one. -/
def wholeWidth (cs : List Char) : Nat :=
  match cs with
  | '0' :: _ => 1
  | _ => digitsWidth Json.isDigit cs

/-- The width of a point and the digits after it. -/
def fractionWidth : List Char → Nat
  | '.' :: rest =>
    let width := digitsWidth Json.isDigit rest
    if width = 0 then 0 else width + 1
  | _ => 0

/-- The width of an exponent. -/
def exponentWidth : List Char → Nat
  | mark :: rest =>
    if mark = 'e' || mark = 'E' then
      let sign := match rest with
        | '+' :: _ => 1
        | '-' :: _ => 1
        | _ => 0
      let width := digitsWidth Json.isDigit (rest.drop sign)
      if width = 0 then 0 else width + sign + 1
    else 0
  | [] => 0

/-- A decimal number: its value and its width. -/
def scanDecimal? (cs : List Char) : Option (Except ReadError Value × Nat) :=
  let (negative, sign) := match cs with
    | '+' :: _ => (false, 1)
    | '-' :: _ => (true, 1)
    | _ => (false, 0)
  let unsigned := cs.drop sign
  let whole := wholeWidth unsigned
  if whole = 0 then none
  else
    let afterWhole := unsigned.drop whole
    let fraction := fractionWidth afterWhole
    let afterFraction := afterWhole.drop fraction
    let exponent := exponentWidth afterFraction
    let digits := (unsigned.take whole).filter (· != '_')
    let value : Except ReadError Value :=
      if fraction = 0 && exponent = 0 then
        if Json.maxIntegerDigits < digits.length then .error .integerTooLong
        else
          let n : Int := Json.digitsValue digits
          .ok (.integer (if negative then -n else n))
      else
        let places := ((afterWhole.take fraction).drop 1).filter (· != '_')
        let power := ((afterFraction.take exponent).drop 1).filter (· != '_')
        let shift : Int := match power with
          | '-' :: ds => -(Json.digitsValue ds : Int)
          | '+' :: ds => Json.digitsValue ds
          | ds => Json.digitsValue ds
        .ok (.float (.ofDecimal negative (Json.digitsValue (digits ++ places))
          (shift - places.length)))
    some (value, sign + whole + fraction + exponent)

/-- The special numbers and their spellings. -/
def specialNumbers : List (String × Value) :=
  [("inf", .float (.infinity false)), ("nan", .float .nan), ("+inf", .float (.infinity false)),
   ("-inf", .float (.infinity true)), ("+nan", .float .nan), ("-nan", .float .nan)]

/-- A word at the front that stands for a value: the value and its width. -/
def scanWord? (words : List (String × Value)) (cs : List Char) : Option (Value × Nat) :=
  (words.find? fun word => word.1.toList.isPrefixOf cs).map fun word => (word.2, word.1.length)

/-- A number of two digits between the bounds, at the front. -/
def twoDigits? (low high : Nat) : List Char → Option Nat
  | a :: b :: _ =>
    if Json.isDigit a && Json.isDigit b then
      let n := Json.digitsValue [a, b]
      if low ≤ n && n ≤ high then some n else none
    else none
  | _ => none

/-- The width of a time of day: hours, minutes and seconds with an optional fraction. -/
def timeWidth? (cs : List Char) : Option Nat := do
  let _ ← twoDigits? 0 23 cs
  let _ ← twoDigits? 0 59 (cs.drop 3)
  let _ ← twoDigits? 0 59 (cs.drop 6)
  if (cs.drop 2).head? = some ':' && (cs.drop 5).head? = some ':' then
    match cs.drop 8 with
    | '.' :: rest =>
      let places := (rest.takeWhile Json.isDigit).length
      some (if places = 0 then 8 else 9 + places)
    | _ => some 8
  else none

/-- The width of the distance from universal time. -/
def offsetWidth (cs : List Char) : Nat :=
  match cs with
  | c :: rest =>
    if c = 'Z' || c = 'z' then 1
    else if (c = '+' || c = '-') && (twoDigits? 0 23 rest).isSome &&
        (rest.drop 2).head? = some ':' && (twoDigits? 0 59 (rest.drop 3)).isSome then 6
    else 0
  | [] => 0

/-- The number of days of a month. -/
def daysInMonth (year month : Nat) : Nat :=
  if month = 2 then
    if year % 4 = 0 && (year % 100 != 0 || year % 400 = 0) then 29 else 28
  else if month = 4 || month = 6 || month = 9 || month = 11 then 30
  else 31

/-- A date, with or without a time of day: its value and its width. There is no year zero, and no
month has more days than the calendar gives it. -/
def scanDate? (cs : List Char) : Option (Except ReadError Value × Nat) := do
  let years := cs.take 4
  if years.length = 4 && years.all Json.isDigit && (cs.drop 4).head? = some '-' &&
      (cs.drop 7).head? = some '-' then
    let month ← twoDigits? 1 12 (cs.drop 5)
    let day ← twoDigits? 1 31 (cs.drop 8)
    let year := Json.digitsValue years
    let timed := match cs.drop 10 with
      | mark :: rest =>
        if mark = 'T' || mark = 't' || mark = ' ' then
          (timeWidth? rest).map fun width => width + 1 + offsetWidth (rest.drop width)
        else none
      | [] => none
    let width := 10 + timed.getD 0
    let spelling := String.ofList (cs.take width)
    let value : Value := if timed.isSome then .dateTime spelling else .date spelling
    if year = 0 || daysInMonth year month < day then some (.error .malformed, width)
    else some (.ok value, width)
  else none

/-- A value other than a text, list or table: the value and its width. -/
def scanPlain (cs : List Char) : Except ReadError (Value × Nat) :=
  match scanWord? [("true", .boolean true), ("false", .boolean false)] cs with
  | some found => .ok found
  | none =>
    match scanDate? cs with
    | some (value, width) => value.map (·, width)
    | none =>
      match timeWidth? cs with
      | some width => .ok (.time (String.ofList (cs.take width)), width)
      | none =>
        match scanBased? cs with
        | some found => .ok found
        | none =>
          match scanDecimal? cs with
          | some (value, width) => value.map (·, width)
          | none =>
            match scanWord? specialNumbers cs with
            | some found => .ok found
            | none => .error .malformed

end ProtocolPages.Toml
