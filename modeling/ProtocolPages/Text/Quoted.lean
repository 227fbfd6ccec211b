import ProtocolPages.Text.Encoding
import ProtocolPages.Text.Printable

/-!
# Quoted text

A text inside a message is shown between quotes. Single quotes are used unless the text holds a
single quote and no double one. Inside, the backslash and the chosen quote are escaped, the tab and
the two line ends have letters of their own, and every other character that is not printable is
written by its code point in two, four or eight hexadecimal digits.
-/

namespace ProtocolPages.Text

/-- The hexadecimal digits of `n`, padded with zeros to at least `width`. -/
def hexPadded (width n : Nat) : List Char :=
  let digits := Nat.toDigits 16 n
  List.replicate (width - digits.length) '0' ++ digits

/-- The quote that surrounds the given characters. -/
def quoteFor (cs : List Char) : Char :=
  if cs.contains '\'' && !cs.contains '"' then '"' else '\''

/-- Write one character inside the given quotes. -/
def quoteChar (quote c : Char) : List Char :=
  if c = '\\' || c = quote then ['\\', c]
  else if c = '\t' then ['\\', 't']
  else if c = '\n' then ['\\', 'n']
  else if c = '\r' then ['\\', 'r']
  else if isPrintable c then [c]
  else if codePoint c ≤ 0xFF then ['\\', 'x'] ++ hexPadded 2 (codePoint c)
  else if codePoint c ≤ 0xFFFF then ['\\', 'u'] ++ hexPadded 4 (codePoint c)
  else ['\\', 'U'] ++ hexPadded 8 (codePoint c)

/-- Show a text between quotes. -/
def quoted (s : String) : String :=
  let cs := s.toList
  let quote := quoteFor cs
  String.ofList (quote :: cs.flatMap (quoteChar quote) ++ [quote])

end ProtocolPages.Text
