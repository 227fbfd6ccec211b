import ProtocolPages.Text.Encoding

/-!
# Character references

Text placed in a table cell must not be taken for markup. Every unsafe character becomes a
hexadecimal character reference such as `&#x3C;`; all other characters stand for themselves.
-/

namespace ProtocolPages.Text

/-- Whether a character has to be written as a reference: quotes, ampersand, angle brackets and
the backtick, control characters other than tab and line ends, and everything outside ASCII. -/
def isUnsafe (c : Char) : Bool :=
  c = '"' || c = '&' || c = '\'' || c = '<' || c = '>' || c = '\x60' ||
    c.toNat ≤ 0x8 || c.toNat = 0xB || c.toNat = 0xC ||
    (0xE ≤ c.toNat && c.toNat ≤ 0x1F) || 0x7F ≤ c.toNat

/-- The hexadecimal digits of `n` in capitals, without leading zeros. -/
def hexDigits (n : Nat) : List Char :=
  (Nat.toDigits 16 n).map Char.toUpper

/-- The reference that denotes a character. -/
def reference (c : Char) : List Char :=
  ['&', '#', 'x'] ++ hexDigits (codePoint c) ++ [';']

/-- Write one character, as a reference when it is unsafe. -/
def encodeEntity (c : Char) : List Char :=
  if isUnsafe c then reference c else [c]

/-- Write a text so that it can stand in a table cell. -/
def encodeEntities (s : String) : String :=
  String.ofList (s.toList.flatMap encodeEntity)

end ProtocolPages.Text
