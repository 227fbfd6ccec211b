import ProtocolPages.Json.Reader
import ProtocolPages.Text.Entity

/-!
# Reading character references back

References are read from front to back: each is replaced by the character that it denotes, and all
else stands for itself. Reading undoes writing, because the ampersand is written as a reference
itself: in a written text an ampersand always starts a reference, and one that stood in the text
before cannot be taken for it.
-/

namespace ProtocolPages.Text

/-! ## Hexadecimal digits -/

/-- A small number is written as one digit. -/
theorem hexDigits_of_lt {n : Nat} (h : n < 16) : hexDigits n = [(Nat.digitChar n).toUpper] := by
  rw [hexDigits, Nat.toDigits_eq_if (by decide), if_pos h]
  rfl

/-- The last digit of a large number stands behind the digits of the rest. -/
theorem hexDigits_of_le {n : Nat} (h : 16 ≤ n) :
    hexDigits n = hexDigits (n / 16) ++ [(Nat.digitChar (n % 16)).toUpper] := by
  rw [hexDigits, Nat.toDigits_eq_if (by decide), if_neg (Nat.not_lt.mpr h), List.map_append]
  rfl

/-- Each digit of a reference is the capital of a hexadecimal digit. -/
theorem exists_of_mem_hexDigits {n : Nat} {c : Char} (h : c ∈ hexDigits n) :
    ∃ digit < 16, c = (Nat.digitChar digit).toUpper := by
  induction n using Nat.strongRecOn with
  | _ n ih =>
    rcases Nat.lt_or_ge n 16 with hsmall | hlarge
    · rw [hexDigits_of_lt hsmall] at h
      exact ⟨n, hsmall, List.mem_singleton.mp h⟩
    · rw [hexDigits_of_le hlarge] at h
      rcases List.mem_append.mp h with hfront | hlast
      · exact ih (n / 16) (by omega) hfront
      · exact ⟨n % 16, Nat.mod_lt n (by decide), List.mem_singleton.mp hlast⟩

/-- There is a digit in front. It is a zero for the number zero only. -/
theorem exists_hexDigits_eq_cons (n : Nat) :
    ∃ first rest, hexDigits n = first :: rest ∧ (first = '0' → n = 0) := by
  induction n using Nat.strongRecOn with
  | _ n ih =>
    rcases Nat.lt_or_ge n 16 with hsmall | hlarge
    · have hzero : ∀ digit < 16, (Nat.digitChar digit).toUpper = '0' → digit = 0 := by decide
      exact ⟨_, [], hexDigits_of_lt hsmall, hzero n hsmall⟩
    · obtain ⟨first, rest, hfront, hzero⟩ := ih (n / 16) (by omega)
      refine ⟨first, rest ++ [(Nat.digitChar (n % 16)).toUpper], ?_, fun h => ?_⟩
      · rw [hexDigits_of_le hlarge, hfront]
        rfl
      · have hnone := hzero h
        omega

/-- The digits of a number are read as the number. -/
theorem hexDigitsValue?_hexDigits (n : Nat) : Json.hexDigitsValue? (hexDigits n) = some n := by
  have hdigit : ∀ digit < 16, Json.hexValue? (Nat.digitChar digit).toUpper = some digit := by decide
  induction n using Nat.strongRecOn with
  | _ n ih =>
    rcases Nat.lt_or_ge n 16 with hsmall | hlarge
    · rw [hexDigits_of_lt hsmall]
      simp [Json.hexDigitsValue?, hdigit n hsmall]
    · have hfront := ih (n / 16) (by omega)
      have hlast := hdigit (n % 16) (Nat.mod_lt n (by decide))
      rw [Json.hexDigitsValue?] at hfront
      rw [hexDigits_of_le hlarge, Json.hexDigitsValue?, List.foldlM_append, hfront]
      simp [hlast, Nat.div_add_mod]

/-! ## Reading references -/

/-- Whether the character can be a digit of a reference. -/
def isHexDigit (c : Char) : Bool :=
  (Json.hexValue? c).isSome

/-- The character whose code point the digits write, if there are any and it is one. -/
def referencedChar? (digits : List Char) : Option Char :=
  if digits = [] then none
  else (Json.hexDigitsValue? digits).bind fun code =>
    if code < 0x110000 then some (ofCodePoint code) else none

/-- The character that a reference at the front denotes, and what comes behind the reference. -/
def leadingReference? : List Char → Option (Char × List Char)
  | '&' :: '#' :: 'x' :: rest =>
    match rest.dropWhile isHexDigit with
    | ';' :: after => (referencedChar? (rest.takeWhile isHexDigit)).map (·, after)
    | _ => none
  | _ => none

/-- What comes behind a reference is shorter. -/
theorem length_lt_of_leadingReference? {cs after : List Char} {c : Char}
    (h : leadingReference? cs = some (c, after)) : after.length < cs.length := by
  unfold leadingReference? at h
  split at h
  · next rest =>
    split at h
    · next behind hbehind =>
      obtain ⟨d, -, hpair⟩ := Option.map_eq_some_iff.mp h
      cases hpair
      have hsuffix := (List.dropWhile_suffix (l := rest) isHexDigit).length_le
      rw [hbehind] at hsuffix
      simp only [List.length_cons] at hsuffix ⊢
      omega
    · cases h
  · cases h

/-- Replace every reference by the character that it denotes, from front to back. -/
def decodeChars : List Char → List Char
  | [] => []
  | c :: rest =>
    match href : leadingReference? (c :: rest) with
    | some (d, after) =>
      have : after.length < (c :: rest).length := length_lt_of_leadingReference? href
      d :: decodeChars after
    | none => c :: decodeChars rest
termination_by cs => cs.length
decreasing_by
  · assumption
  · exact Nat.lt_succ_self _

/-- Read a text in which characters are written as references. -/
def decodeEntities (s : String) : String :=
  String.ofList (decodeChars s.toList)

/-- A reference in front is read as its character. -/
theorem decodeChars_of_reference {cs after : List Char} {c : Char}
    (h : leadingReference? cs = some (c, after)) : decodeChars cs = c :: decodeChars after := by
  cases cs with
  | nil => cases h
  | cons first rest =>
    rw [decodeChars]
    split
    · next hfound =>
      cases h.symm.trans hfound
      rfl
    · next hnone => cases h.symm.trans hnone

/-- What is no ampersand stands for itself. -/
theorem decodeChars_of_ne {c : Char} (h : c ≠ '&') (rest : List Char) :
    decodeChars (c :: rest) = c :: decodeChars rest := by
  have hnone : leadingReference? (c :: rest) = none := by
    unfold leadingReference?
    split
    · next hcs => exact absurd (List.cons.inj hcs).1 h
    · rfl
  rw [decodeChars]
  split
  · next hfound => cases hnone.symm.trans hfound
  · rfl

/-- The reference of a character is read as the character, whatever follows. -/
theorem leadingReference?_reference (c : Char) (after : List Char) :
    leadingReference? (reference c ++ after) = some (c, after) := by
  have hdigits : ∀ d ∈ hexDigits (codePoint c), isHexDigit d = true := by
    intro d hd
    obtain ⟨digit, hdigit, rfl⟩ := exists_of_mem_hexDigits hd
    have hall : ∀ digit < 16, isHexDigit (Nat.digitChar digit).toUpper = true := by decide
    exact hall digit hdigit
  have hend : isHexDigit ';' ≠ true := by decide
  have htake : (hexDigits (codePoint c) ++ ';' :: after).takeWhile isHexDigit =
      hexDigits (codePoint c) := by
    rw [List.takeWhile_append_of_pos hdigits, List.takeWhile_cons_of_neg hend, List.append_nil]
  have hdrop : (hexDigits (codePoint c) ++ ';' :: after).dropWhile isHexDigit = ';' :: after := by
    rw [List.dropWhile_append_of_pos hdigits, List.dropWhile_cons_of_neg hend]
  have hchar : referencedChar? (hexDigits (codePoint c)) = some c := by
    obtain ⟨first, rest, hcons, -⟩ := exists_hexDigits_eq_cons (codePoint c)
    have hfilled : hexDigits (codePoint c) ≠ [] := by simp [hcons]
    rw [referencedChar?, if_neg hfilled, hexDigitsValue?_hexDigits, Option.bind_some,
      if_pos (codePoint_lt c), ofCodePoint_codePoint]
  have htext : reference c ++ after =
      '&' :: '#' :: 'x' :: (hexDigits (codePoint c) ++ ';' :: after) := by
    simp [reference]
  rw [htext, leadingReference?, hdrop, htake, hchar]
  rfl

/-- Reading undoes writing. -/
theorem decodeChars_flatMap_encodeEntity (cs : List Char) :
    decodeChars (cs.flatMap encodeEntity) = cs := by
  induction cs with
  | nil => rw [List.flatMap_nil, decodeChars]
  | cons c rest ih =>
    rw [List.flatMap_cons]
    unfold encodeEntity
    split
    · rw [decodeChars_of_reference (leadingReference?_reference c _)]
      exact congrArg (c :: ·) ih
    · next hsafe =>
      have hne : c ≠ '&' := by
        rintro rfl
        exact hsafe rfl
      rw [List.singleton_append, decodeChars_of_ne hne]
      exact congrArg (c :: ·) ih

/-- Encoding is undone by decoding. -/
@[simp] theorem decodeEntities_encodeEntities (s : String) :
    decodeEntities (encodeEntities s) = s := by
  rw [decodeEntities, encodeEntities, String.toList_ofList, decodeChars_flatMap_encodeEntity,
    String.ofList_toList]

/-! ## Written texts -/

/-- The character is a tab, a line end or a printable sign of ASCII, and no quote, angle bracket or
backtick. -/
def CellSafe (c : Char) : Prop :=
  c = '\t' ∨ c = '\n' ∨ c = '\r' ∨
    (0x20 ≤ c.toNat ∧ c.toNat ≤ 0x7E ∧ c ∉ ['"', '\'', '<', '>', '\x60'])

instance (c : Char) : Decidable (CellSafe c) :=
  inferInstanceAs (Decidable (_ ∨ _))

/-- What may follow an ampersand: the digits of a reference in capitals, without a leading zero, up
to its semicolon. -/
def ContinuesReference (cs : List Char) : Prop :=
  ∃ digits after, cs = '#' :: 'x' :: (digits ++ ';' :: after) ∧ digits ≠ [] ∧
    (∀ d ∈ digits, d ∈ "0123456789ABCDEF".toList) ∧ (digits.head? = some '0' → digits = ['0'])

/-- The characters that stand for themselves are those that are safe, apart from the ampersand. -/
theorem isUnsafe_eq_false_iff {c : Char} : isUnsafe c = false ↔ CellSafe c ∧ c ≠ '&' := by
  have hcode (d : Char) : c = d ↔ c.toNat = d.toNat := Char.toNat_inj.symm
  simp only [isUnsafe, CellSafe, Bool.or_eq_false_iff, Bool.and_eq_false_iff,
    decide_eq_false_iff_not, List.mem_cons, List.not_mem_nil, or_false, not_or, ne_eq, hcode,
    Char.reduceToNat]
  omega

/-- Behind the ampersand of a reference there is no other one in it. -/
theorem ampersand_not_mem_reference_tail (c : Char) :
    '&' ∉ '#' :: 'x' :: (hexDigits (codePoint c) ++ [';']) := by
  intro h
  have hdigits : '&' ∈ hexDigits (codePoint c) := by simpa using h
  obtain ⟨digit, hdigit, heq⟩ := exists_of_mem_hexDigits hdigits
  have hnone : ∀ digit < 16, '&' ≠ (Nat.digitChar digit).toUpper := by decide
  exact hnone digit hdigit heq

/-- What follows the ampersand of a reference. -/
theorem continuesReference_reference (c : Char) (after : List Char) :
    ContinuesReference ('#' :: 'x' :: (hexDigits (codePoint c) ++ ';' :: after)) := by
  obtain ⟨first, rest, hcons, hzero⟩ := exists_hexDigits_eq_cons (codePoint c)
  refine ⟨hexDigits (codePoint c), after, rfl, by simp [hcons], fun d hd => ?_, fun hhead => ?_⟩
  · obtain ⟨digit, hdigit, rfl⟩ := exists_of_mem_hexDigits hd
    have hall : ∀ digit < 16, (Nat.digitChar digit).toUpper ∈ "0123456789ABCDEF".toList := by decide
    exact hall digit hdigit
  · rw [hcons] at hhead
    rw [hzero (Option.some.inj hhead)]
    rfl

/-- A written character is made of safe ones. -/
theorem cellSafe_of_mem_encodeEntity {c d : Char} (h : d ∈ encodeEntity c) : CellSafe d := by
  unfold encodeEntity at h
  split at h
  · simp only [reference, List.mem_append, List.mem_cons, List.not_mem_nil, or_false] at h
    rcases h with ((rfl | rfl | rfl) | hmem) | rfl
    · decide
    · decide
    · decide
    · obtain ⟨digit, hdigit, rfl⟩ := exists_of_mem_hexDigits hmem
      have hall : ∀ digit < 16, CellSafe (Nat.digitChar digit).toUpper := by decide
      exact hall digit hdigit
    · decide
  · next hsafe =>
    obtain rfl := List.mem_singleton.mp h
    exact (isUnsafe_eq_false_iff.mp (Bool.eq_false_iff.mpr hsafe)).1

/-- An ampersand in a written text starts a reference. The induction is on the text before it was
written: the ampersand stands in what is written for its first character or behind that. -/
theorem continuesReference_of_flatMap {cs before after : List Char}
    (h : cs.flatMap encodeEntity = before ++ '&' :: after) : ContinuesReference after := by
  induction cs generalizing before with
  | nil => simp at h
  | cons c rest ih =>
    rw [List.flatMap_cons] at h
    rcases List.append_eq_append_iff.mp h with ⟨between, -, hrest⟩ | ⟨tail, hfirst, hafter⟩
    · exact ih hrest
    · cases tail with
      | nil =>
        have hrest : rest.flatMap encodeEntity = [] ++ '&' :: after := hafter.symm
        exact ih hrest
      | cons d tail =>
        obtain ⟨rfl, rfl⟩ := List.cons.inj hafter
        unfold encodeEntity at hfirst
        split at hfirst
        · obtain ⟨rfl, rfl⟩ : before = [] ∧
              tail = '#' :: 'x' :: (hexDigits (codePoint c) ++ [';']) := by
            cases before with
            | nil => exact ⟨rfl, (List.cons.inj hfirst).2.symm⟩
            | cons e before =>
              have htail :
                  '#' :: 'x' :: (hexDigits (codePoint c) ++ [';']) = before ++ '&' :: tail :=
                (List.cons.inj hfirst).2
              exact absurd (by simp [htail]) (ampersand_not_mem_reference_tail c)
          simpa using continuesReference_reference c (rest.flatMap encodeEntity)
        · next hsafe =>
          have hmem : '&' ∈ [c] := by simp [hfirst]
          obtain rfl := List.mem_singleton.mp hmem
          exact absurd rfl hsafe

/-- Writing makes no text shorter. -/
theorem length_le_flatMap_encodeEntity (cs : List Char) :
    cs.length ≤ (cs.flatMap encodeEntity).length := by
  induction cs with
  | nil => exact Nat.zero_le _
  | cons c rest ih =>
    have hfirst : 1 ≤ (encodeEntity c).length := by
      unfold encodeEntity
      split <;> simp [reference]
    rw [List.flatMap_cons, List.length_append, List.length_cons]
    omega

/-- The texts that are written as they are are those without unsafe characters. -/
theorem flatMap_encodeEntity_eq_self_iff {cs : List Char} :
    cs.flatMap encodeEntity = cs ↔ ∀ c ∈ cs, isUnsafe c = false := by
  induction cs with
  | nil => simp
  | cons c rest ih =>
    rw [List.flatMap_cons, List.forall_mem_cons, ← ih]
    cases hc : isUnsafe c with
    | false => simp [encodeEntity, hc]
    | true =>
      -- A reference takes more than one character, and nothing behind it gets shorter.
      refine iff_of_false (fun hsame => ?_) (by simp)
      have hlength := congrArg List.length hsame
      have hrest := length_le_flatMap_encodeEntity rest
      simp only [encodeEntity, hc, if_true, reference, List.length_append, List.length_cons,
        List.length_nil] at hlength
      omega

/-- A reference that stands in the text is not taken for one that was written. -/
example : encodeEntities "&#x3C; é<" = "&#x26;#x3C; &#xE9;&#x3C;" := by decide

end ProtocolPages.Text
