import ProtocolPages.Text.CaseTable

/-!
# Lower-casing

Lower-casing maps each character on its own, with two exceptions. The dotted capital I becomes two
characters, and a capital sigma takes its final form at the end of a word. A sigma ends a word when
the nearest letter before it carries case and the nearest letter after it does not; marks and word
punctuation in between are passed over.
-/

namespace ProtocolPages.Text

/-- Whether the character carries case. -/
def isCased (c : Char) : Bool :=
  inRanges casedRanges c

/-- Whether the character is passed over when the neighbours of a sigma are inspected. -/
def isCaseIgnorable (c : Char) : Bool :=
  inRanges caseIgnorableRanges c

/-- The small letter of a single character; a character without one stays as it is. -/
def lowerChar (c : Char) : Char :=
  match caseRuns.find? (·.covers c.toNat) with
  | some run => Char.ofNat (c.toNat + run.shift).toNat
  | none => c

/-- Whether the first character that is not passed over carries case. -/
def meetsCased (cs : List Char) : Bool :=
  match cs.dropWhile isCaseIgnorable with
  | [] => false
  | c :: _ => isCased c

/-- Lower-case one character between the characters `before` it, nearest first, and those
`after` it. -/
def lowerBetween (before : List Char) (c : Char) (after : List Char) : List Char :=
  if c = 'Σ' then
    if meetsCased before && !meetsCased after then ['ς'] else ['σ']
  else if c = 'İ' then ['i', '\u0307']
  else [lowerChar c]

/-- Lower-case a list of characters that follows the characters `before`, nearest first. -/
def lowerAfter (before : List Char) : List Char → List Char
  | [] => []
  | c :: rest => lowerBetween before c rest ++ lowerAfter (c :: before) rest

/-- Lower-case a text. -/
def lower (s : String) : String :=
  String.ofList (lowerAfter [] s.toList)

end ProtocolPages.Text
