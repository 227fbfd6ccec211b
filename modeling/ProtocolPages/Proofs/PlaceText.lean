import ProtocolPages.Schema.Node
import Mathlib.Data.List.Basic
import Mathlib.Data.List.Induction

/-!
# Reading places

Errors name a node by the text of its place. The reader of this file takes such a text apart again,
into the keys and indices that lead to the node, and the text of a place whose keys hold none of the
separating characters reads back as that place.
-/

namespace ProtocolPages

namespace Place

/-- Whether a character separates the steps of a place. -/
def isSeparator (c : Char) : Bool :=
  c == '.' || c == '[' || c == ']'

/-- Take a character into the step that is being read, the first of the steps read so far. -/
def grow (c : Char) : Place → Place
  | [] => [.key (String.singleton c)]
  | .key name :: before => .key (name.push c) :: before
  | .item index :: before => .item (10 * index + (c.toNat - '0'.toNat)) :: before

/-- Take one more character of a text into account. The steps read so far stand last first. -/
def readChar (steps : Place) (c : Char) : Place :=
  if c = '.' then .key "" :: steps
  else if c = '[' then .item 0 :: steps
  else if c = ']' then steps
  else grow c steps

/-- The place that a text names. -/
def ofText (s : String) : Place :=
  (s.toList.foldl readChar []).reverse

/-- The key is not empty and free of separating characters. -/
def PlainKey (name : String) : Prop :=
  name ≠ "" ∧ ∀ c ∈ name.toList, isSeparator c = false

-- The characters of the key are tried one by one, not all characters there are.
instance (name : String) : Decidable (PlainKey name) :=
  decidable_of_iff (name ≠ "" ∧ name.toList.all (fun c => !isSeparator c) = true)
    (by simp [PlainKey])

/-- All keys of the place are plain. -/
def Plain (place : Place) : Prop :=
  ∀ name, .key name ∈ place → PlainKey name

/-- A character that does not separate belongs to the step that is being read. -/
theorem readChar_of_not_separator {c : Char} (hc : isSeparator c = false) (steps : Place) :
    readChar steps c = grow c steps := by
  simp only [isSeparator, Bool.or_eq_false_iff, beq_eq_false_iff_ne] at hc
  rw [readChar, if_neg hc.1.1, if_neg hc.1.2, if_neg hc.2]

/-- Characters that do not separate are read into the key. -/
theorem foldl_readChar_key {cs : List Char} (hcs : ∀ c ∈ cs, isSeparator c = false)
    (name : String) (before : Place) :
    cs.foldl readChar (.key name :: before) = .key (name ++ String.ofList cs) :: before := by
  induction cs generalizing name with
  | nil => simp
  | cons c cs ih =>
    rw [List.foldl_cons, readChar_of_not_separator (hcs c List.mem_cons_self), grow,
      ih fun d hd => hcs d (List.mem_cons_of_mem c hd)]
    congr 2
    apply String.toList_injective
    simp

/-- The first key is not announced by a separator; its first character starts it. -/
theorem foldl_readChar_first {name : String} (hname : PlainKey name) :
    name.toList.foldl readChar [] = [.key name] := by
  obtain ⟨hnonempty, hchars⟩ := hname
  cases hcs : name.toList with
  | nil => exact absurd (String.toList_injective hcs) hnonempty
  | cons c cs =>
    rw [hcs] at hchars
    have hrest : ∀ d ∈ cs, isSeparator d = false :=
      fun d hd => hchars d (List.mem_cons_of_mem c hd)
    have hwhole : String.singleton c ++ String.ofList cs = name := by
      apply String.toList_injective
      simp [hcs]
    rw [List.foldl_cons, readChar_of_not_separator (hchars c List.mem_cons_self), grow,
      foldl_readChar_key hrest, hwhole]

/-- Characters that do not separate are read into the index. -/
theorem foldl_readChar_item {cs : List Char} (hcs : ∀ c ∈ cs, isSeparator c = false)
    (index : Nat) (before : Place) :
    cs.foldl readChar (.item index :: before) = .item (Nat.ofDigitChars 10 cs index) :: before := by
  induction cs generalizing index with
  | nil => simp
  | cons c cs ih =>
    rw [List.foldl_cons, readChar_of_not_separator (hcs c List.mem_cons_self), grow,
      ih fun d hd => hcs d (List.mem_cons_of_mem c hd), Nat.ofDigitChars_cons]

/-- The digits of a number do not separate. -/
theorem isSeparator_of_mem_toDigits {c : Char} {n : Nat} (hc : c ∈ Nat.toDigits 10 n) :
    isSeparator c = false := by
  have hdigit := Nat.isDigit_of_mem_toDigits (by decide) (by decide) hc
  by_contra hseparator
  simp only [isSeparator, Bool.not_eq_false, Bool.or_eq_true, beq_iff_eq] at hseparator
  rcases hseparator with (rfl | rfl) | rfl <;> exact absurd hdigit (by decide)

section Concat

variable (place : Place)

/-- A key is written behind a dot, unless it stands first. -/
theorem text_concat_key (name : String) :
    text (place ++ [.key name]) =
      if (text place).isEmpty then name else text place ++ "." ++ name := by
  simp [text]

/-- An index is written in square brackets. -/
theorem text_concat_item (index : Nat) :
    text (place ++ [.item index]) = text place ++ "[" ++ toString index ++ "]" := by
  simp [text]

end Concat

/-- A place with plain keys has a text, unless it is the root. -/
theorem text_isEmpty {place : Place} (hplain : place.Plain) :
    (text place).isEmpty = place.isEmpty := by
  rcases List.eq_nil_or_concat' place with rfl | ⟨place, step, rfl⟩
  · rfl
  · have hnonempty : text (place ++ [step]) ≠ "" := by
      cases step with
      | key name =>
        have hname := (hplain name (by simp)).1
        rw [text_concat_key]
        split <;> simp [hname]
      | item index => simp [text_concat_item]
    rw [String.isEmpty_eq_false_iff.mpr hnonempty, List.isEmpty_eq_false_iff.mpr (by simp)]

/-- Reading the text of a place with plain keys gives the steps of the place, last first. -/
theorem foldl_readChar_text {place : Place} (hplain : place.Plain) :
    (text place).toList.foldl readChar [] = place.reverse := by
  induction place using List.reverseRecOn with
  | nil => rfl
  | append_singleton place step ih =>
    have hbefore : Plain place := fun name hname => hplain name (by simp [hname])
    cases step with
    | key name =>
      have hname : PlainKey name := hplain name (by simp)
      rw [text_concat_key, text_isEmpty hbefore]
      cases place with
      | nil =>
        rw [List.isEmpty_nil, if_pos rfl, foldl_readChar_first hname]
        rfl
      | cons first rest =>
        simp only [List.isEmpty_cons, Bool.false_eq_true, if_false, String.toList_append,
          List.foldl_append, ih hbefore]
        change name.toList.foldl readChar (.key "" :: _) = _
        rw [foldl_readChar_key hname.2]
        simp
    | item index =>
      rw [text_concat_item]
      simp only [String.toList_append, List.foldl_append, ih hbefore]
      change readChar ((toString index).toList.foldl readChar (.item 0 :: _)) ']' = _
      rw [Nat.toString_eq_repr, Nat.toList_repr,
        foldl_readChar_item fun c hc => isSeparator_of_mem_toDigits hc,
        Nat.ofDigitChars_ten_toDigits]
      simp [readChar]

/-- The text of a place with plain keys names that place. -/
theorem ofText_text {place : Place} (hplain : place.Plain) : ofText (text place) = place := by
  rw [ofText, foldl_readChar_text hplain, List.reverse_reverse]

end Place

end ProtocolPages
