/-!
# Texts and bytes

A text of the program is a sequence of code points, and the halves of a surrogate pair may stand in
it alone. No character is such a half, so the 2048 private characters that lie `0xF0000` above the
surrogates stand for them. These characters themselves are outside of the model: a text that has one
of them is taken for a text with the surrogate.

A text with a lone surrogate cannot be encoded. In the name of a file the surrogates from `0xDC80`
to `0xDCFF` are an exception, since they are how a byte that belongs to no text is written there.
Names are compared as texts, so a name that writes the bytes of a character in this way is told
apart from the name with the character.

Text files may end their lines with a carriage return, a line feed or both. Reading a file as text
turns each of these into a single line feed.
-/

namespace ProtocolPages.Text

/-! ## Lone surrogates -/

/-- The distance from a surrogate to the character that stands for it. -/
def standInShift : Nat := 0xF0000

/-- The character that stands for a code point. -/
def ofCodePoint (code : Nat) : Char :=
  if 0xD800 ≤ code && code < 0xE000 then Char.ofNat (code + standInShift) else Char.ofNat code

/-- Whether a character stands for a lone surrogate. -/
def isLone (c : Char) : Bool :=
  0xFD800 ≤ c.toNat && c.toNat < 0xFE000

/-- The code point that a character stands for. -/
def codePoint (c : Char) : Nat :=
  if isLone c then c.toNat - standInShift else c.toNat

/-- A code that is that of a character gives the character; no character is a surrogate. -/
theorem ofCodePoint_toNat (c : Char) : ofCodePoint c.toNat = c := by
  have hvalid : c.toNat < 0xD800 ∨ 0xDFFF < c.toNat ∧ c.toNat < 0x110000 := c.valid
  have hother : ¬(0xD800 ≤ c.toNat && c.toNat < 0xE000) = true := by
    intro hrange
    obtain ⟨hlow, hhigh⟩ := Bool.and_eq_true_iff.mp hrange
    have hfirst : 0xD800 ≤ c.toNat := of_decide_eq_true hlow
    have hlast : c.toNat < 0xE000 := of_decide_eq_true hhigh
    omega
  rw [ofCodePoint, if_neg hother, Char.ofNat_toNat]

/-- A character is told by its code point. -/
theorem ofCodePoint_codePoint (c : Char) : ofCodePoint (codePoint c) = c := by
  cases hlone : isLone c with
  | true =>
    have hshift : standInShift = 0xF0000 := rfl
    obtain ⟨hlow, hhigh⟩ := Bool.and_eq_true_iff.mp hlone
    have hfirst : 0xFD800 ≤ c.toNat := of_decide_eq_true hlow
    have hlast : c.toNat < 0xFE000 := of_decide_eq_true hhigh
    have hsurrogate : (0xD800 ≤ c.toNat - standInShift &&
        c.toNat - standInShift < 0xE000) = true :=
      Bool.and_eq_true_iff.mpr ⟨decide_eq_true (by omega), decide_eq_true (by omega)⟩
    rw [codePoint, hlone, if_pos rfl, ofCodePoint, if_pos hsurrogate, Nat.sub_add_cancel (by omega),
      Char.ofNat_toNat]
  | false => rw [codePoint, hlone, if_neg Bool.false_ne_true, ofCodePoint_toNat]

/-- Code points end where characters do. -/
theorem codePoint_lt (c : Char) : codePoint c < 0x110000 := by
  have hvalid : c.toNat < 0xD800 ∨ 0xDFFF < c.toNat ∧ c.toNat < 0x110000 := c.valid
  unfold codePoint
  split <;> omega

/-- The bytes of a text, unless it has a lone surrogate. -/
def encode? (s : String) : Option ByteArray :=
  if s.toList.any isLone then none else some s.toUTF8

/-- A text that can be encoded is encoded as it is. -/
theorem encode?_cases (s : String) : encode? s = none ∨ encode? s = some s.toUTF8 := by
  unfold encode?
  split
  · exact Or.inl rfl
  · exact Or.inr rfl

/-- A text can be encoded exactly if it has no lone surrogates. -/
theorem encode?_eq_some_iff {s : String} :
    encode? s = some s.toUTF8 ↔ s.toList.any isLone = false := by
  unfold encode?
  split
  · next h => simp [h]
  · next h => simpa using h

/-- Characters that are no lone surrogates make a text that can be encoded. -/
theorem encode?_ofList {cs : List Char} (h : cs.any isLone = false) :
    encode? (.ofList cs) = some (String.ofList cs).toUTF8 := by
  rwa [encode?_eq_some_iff, String.toList_ofList]

/-- Texts that can be encoded can be encoded together. -/
theorem encode?_append {s t : String} (hs : encode? s = some s.toUTF8)
    (ht : encode? t = some t.toUTF8) : encode? (s ++ t) = some (s ++ t).toUTF8 := by
  rw [encode?_eq_some_iff] at hs ht ⊢
  rw [String.toList_append, List.any_append, hs, ht, Bool.or_false]

/-! ## File names -/

/-- Whether a character stands for a single byte of a file name. -/
def isByte (c : Char) : Bool :=
  0xDC80 ≤ codePoint c && codePoint c ≤ 0xDCFF

/-- Whether a text can be part of a file name as far as encoding goes. -/
def isNameable (s : String) : Bool :=
  s.toList.all fun c => !isLone c || isByte c

/-- The number of bytes of a text in a file name. -/
def nameSize (s : String) : Nat :=
  s.toList.foldl (fun n c => n + if isByte c then 1 else c.utf8Size) 0

/-! ## Line ends -/

/-- Replace every line end by a line feed. -/
def unifyLineEnds : List Char → List Char
  | '\r' :: '\n' :: rest => '\n' :: unifyLineEnds rest
  | '\r' :: rest => '\n' :: unifyLineEnds rest
  | c :: rest => c :: unifyLineEnds rest
  | [] => []

/-- Replace a carriage return and line feed in sequence by the line feed alone, and keep every other
carriage return. -/
def joinLineEnds : List Char → List Char
  | '\r' :: '\n' :: rest => '\n' :: joinLineEnds rest
  | c :: rest => c :: joinLineEnds rest
  | [] => []

end ProtocolPages.Text
