import ProtocolPages.Json.Reader
import Mathlib.Tactic.Common

/-!
# Reading what is spelled

The reader carries the bounds that its termination needs through every result. Left out, its
equations say plainly what is read and what is left. With them, a value that is made of texts, lists
and objects is read back from its spelling.
-/

namespace ProtocolPages.Json

/-! ## The reader without bounds -/

/-- Leave out the bound on the length of what is left. -/
def unbounded {α : Type} {cs : List Char} (result : Except ReadError (α × Rest cs)) :
    Except ReadError (α × List Char) :=
  result.map fun r => (r.1, r.2.val)

/-- What was read and what is left, without the bound. -/
theorem unbounded_ok {α : Type} {cs : List Char} (a : α) (rest : Rest cs) :
    unbounded (.ok (a, rest)) = .ok (a, rest.val) := rfl

/-- The text behind a quote, and what is left. -/
def textAt (tail : List Char) : Except ReadError (String × List Char) := do
  let (units, used) ← scanText (tail.length + 1) tail
  return (String.ofList (joinPairs units), tail.drop used)

/-- The value at the front, and what is left. -/
def valueAt (cs : List Char) : Except ReadError (Value × List Char) :=
  unbounded (readValue cs)

/-- The items up to the end of a list, and what is left. -/
def itemsAt (cs : List Char) : Except ReadError (List Value × List Char) :=
  unbounded (readItems cs)

/-- The fields up to the end of an object, after the fields `before`, and what is left. -/
def fieldsAt (before : List (String × Value)) (cs : List Char) :
    Except ReadError (List (String × Value) × List Char) :=
  unbounded (readFields before cs)

/-- A quote starts a text. -/
theorem valueAt_text (tail : List Char) :
    valueAt ('"' :: tail) = (textAt tail).map fun r => (.text r.1, r.2) := by
  rw [valueAt, readValue]
  simp only [if_true, readText, textAt]
  cases scanText (tail.length + 1) tail <;> rfl

/-- A bracket starts a list. -/
theorem valueAt_list (tail : List Char) :
    valueAt ('[' :: tail) =
      match skipSpace tail with
      | ']' :: rest => .ok (.list [], rest)
      | _ => (itemsAt tail).map fun r => (.list r.1, r.2) := by
  rw [valueAt, readValue, itemsAt]
  simp only [Char.reduceEq, if_false, if_true]
  split
  · next hskip => simp only [hskip]; rfl
  · next hskip =>
    split
    · next hend => exact absurd hend (hskip _)
    · cases readItems tail <;> rfl

/-- A brace starts an object. -/
theorem valueAt_object (tail : List Char) :
    valueAt ('\x7b' :: tail) =
      match skipSpace tail with
      | '\x7d' :: rest => .ok (.object [], rest)
      | _ => (fieldsAt [] tail).map fun r => (.object r.1, r.2) := by
  rw [valueAt, readValue, fieldsAt]
  simp only [Char.reduceEq, if_false, if_true]
  split
  · next hskip => simp only [hskip]; rfl
  · next hskip =>
    split
    · next hend => exact absurd hend (hskip _)
    · cases readFields [] tail <;> rfl

/-- Items are separated by commas. -/
theorem itemsAt_eq (cs : List Char) :
    itemsAt cs = (do
      let (item, rest) ← valueAt (skipSpace cs)
      match skipSpace rest with
      | ']' :: rest => return ([item], rest)
      | ',' :: rest => do
        let (items, rest) ← itemsAt rest
        return (item :: items, rest)
      | other => complain .comma other) := by
  rw [itemsAt, readItems, valueAt]
  cases readValue (skipSpace cs) with
  | error e => rfl
  | ok r =>
    obtain ⟨item, rest, hrest⟩ := r
    rw [unbounded_ok item (⟨rest, hrest⟩ : Rest (skipSpace cs))]
    simp only [Bind.bind, Except.bind]
    split
    · next hskip => simp only [hskip]; rfl
    · next rest hskip =>
      simp only [hskip, itemsAt]
      cases readItems rest <;> rfl
    · next hend hcomma =>
      split
      · next hskip => exact absurd hskip (hend _)
      · next hskip => exact absurd hskip (hcomma _)
      · rfl

/-- Fields are keys and values with colons between them, and are separated by commas. -/
theorem fieldsAt_eq (before : List (String × Value)) (cs : List Char) :
    fieldsAt before cs =
      match skipSpace cs with
      | '"' :: tail => do
        let (key, rest) ← textAt tail
        match skipSpace rest with
        | ':' :: rest => do
          let (v, rest) ← valueAt (skipSpace rest)
          let fields := Ordered.put (· == ·) key v before
          match skipSpace rest with
          | '\x7d' :: rest => return (fields, rest)
          | ',' :: rest => fieldsAt fields rest
          | other => complain .comma other
        | other => complain .colon other
      | other => complain .propertyName other := by
  rw [fieldsAt, readFields]
  split
  · next tail hquote =>
    simp only [hquote, readText, textAt]
    cases scanText (tail.length + 1) tail with
    | error e => rfl
    | ok r =>
      obtain ⟨units, used⟩ := r
      simp only [Bind.bind, Except.bind, pure, Except.pure]
      split
      · next rest hcolon =>
        simp only [hcolon, valueAt]
        cases readValue (skipSpace rest) with
        | error e => rfl
        | ok r =>
          obtain ⟨v, left, hleft⟩ := r
          rw [unbounded_ok v (⟨left, hleft⟩ : Rest (skipSpace rest))]
          dsimp only
          split
          · next hskip => simp only [hskip]; rfl
          · next rest hskip =>
            simp only [hskip, fieldsAt]
            cases readFields
              (Ordered.put (· == ·) (String.ofList (joinPairs units)) v before) rest <;> rfl
          · next hend hcomma =>
            split
            · next hskip => exact absurd hskip (hend _)
            · next hskip => exact absurd hskip (hcomma _)
            · rfl
      · next hcolon =>
        split
        · next hskip => exact absurd hskip (hcolon _)
        · rfl
  · next hquote =>
    split
    · next hskip => exact absurd hskip (hquote _)
    · rfl

/-- Nothing but space may stand around the value of a text. -/
theorem read_eq {text : String} (h : text.toList.head? ≠ some '\uFEFF') :
    read text = (do
      let (v, rest) ← valueAt (skipSpace text.toList)
      match skipSpace rest with
      | [] => return v
      | extra => complain .extraData extra) := by
  rw [read, valueAt]
  split
  · next htext => simp [htext] at h
  · cases readValue (skipSpace text.toList) <;> rfl

/-! ## Spelling values -/

/-- Whether the character stands for itself in a text. -/
def isPlain (c : Char) : Bool :=
  0x20 ≤ c.toNat && c ≠ '"' && c ≠ '\\'

/-- Spell a text. -/
def spellText (s : String) : List Char :=
  '"' :: (s.toList ++ ['"'])

mutual

/-- Spell a value that is made of texts, lists and objects. -/
def spell : Value → List Char
  | .text s => spellText s
  | .list [] => ['[', ']']
  | .list (v :: rest) => '[' :: (spell v ++ spellItems rest)
  | .object [] => ['\x7b', '\x7d']
  | .object ((key, v) :: rest) => '\x7b' :: (spellText key ++ ':' :: (spell v ++ spellFields rest))
  | _ => []

/-- Spell further items of a list, up to its end. -/
def spellItems : List Value → List Char
  | [] => [']']
  | v :: rest => ',' :: (spell v ++ spellItems rest)

/-- Spell further fields of an object, up to its end. -/
def spellFields : List (String × Value) → List Char
  | [] => ['\x7d']
  | (key, v) :: rest => ',' :: (spellText key ++ ':' :: (spell v ++ spellFields rest))

end

mutual

/-- Whether the value is made of plain texts, lists and objects, with no key twice. -/
def spellable : Value → Bool
  | .text s => s.toList.all isPlain
  | .list items => spellableItems items
  | .object fields => spellableFields fields
  | _ => false

/-- Whether all items can be spelled. -/
def spellableItems : List Value → Bool
  | [] => true
  | v :: rest => spellable v && spellableItems rest

/-- Whether all fields can be spelled and their keys differ. -/
def spellableFields : List (String × Value) → Bool
  | [] => true
  | (key, v) :: rest =>
    (key.toList.all isPlain && rest.all (·.1 != key)) && (spellable v && spellableFields rest)

end

/-- Plain characters are scanned up to the closing quote. -/
theorem scanText_of_plain {cs : List Char} (h : cs.all isPlain = true) (start : Nat)
    (rest : List Char) :
    scanText start (cs ++ '"' :: rest) = .ok (cs.map Char.toNat, cs.length + 1) := by
  induction cs with
  | nil => simp [scanText]
  | cons c cs ih =>
    rw [List.all_cons, Bool.and_eq_true] at h
    obtain ⟨⟨hcontrol, hquote⟩, hescape⟩ : (0x20 ≤ c.toNat ∧ c ≠ '"') ∧ c ≠ '\\' := by
      simpa [isPlain] using h.1
    rw [List.cons_append, scanText]
    · rw [if_neg (by omega), ih h.2]
      rfl
    all_goals simp_all

/-- Characters are never taken for halves of pairs. -/
theorem joinPairs_toNat (cs : List Char) : joinPairs (cs.map Char.toNat) = cs := by
  have hchar (c : Char) : ¬(0xD800 ≤ c.toNat ∧ c.toNat < 0xE000) := by
    have hvalid : c.toNat < 0xD800 ∨ 0xDFFF < c.toNat ∧ c.toNat < 0x110000 := c.valid
    omega
  induction cs with
  | nil => rfl
  | cons c cs ih =>
    have hc := hchar c
    cases cs with
    | nil =>
      simp only [List.map_cons, List.map_nil, joinPairs, Text.ofCodePoint_toNat]
    | cons c' cs =>
      simp only [List.map_cons, joinPairs, Bool.and_eq_true, decide_eq_true_eq] at ih ⊢
      rw [if_neg (by omega), ih, Text.ofCodePoint_toNat]

/-- A plain text is read up to its closing quote. -/
theorem textAt_of_plain {s : String} (h : s.toList.all isPlain = true) (rest : List Char) :
    textAt (s.toList ++ '"' :: rest) = .ok (s, rest) := by
  rw [textAt, scanText_of_plain h]
  simp [Bind.bind, Except.bind, pure, Except.pure, joinPairs_toNat]

/-- What is no space is not skipped. -/
theorem skipSpace_cons {c : Char} (h : isSpace c = false) (cs : List Char) :
    skipSpace (c :: cs) = c :: cs := by
  simp [skipSpace, h]

/-- A spelled value starts with a quote or an opening bracket. -/
theorem spell_head {v : Value} (h : spellable v = true) :
    ∃ c cs, spell v = c :: cs ∧ (c = '"' ∨ c = '[' ∨ c = '\x7b') := by
  match v, h with
  | .text s, _ => exact ⟨_, _, rfl, Or.inl rfl⟩
  | .list [], _ => exact ⟨_, _, rfl, Or.inr (Or.inl rfl)⟩
  | .list (_ :: _), _ => exact ⟨_, _, by rw [spell], Or.inr (Or.inl rfl)⟩
  | .object [], _ => exact ⟨_, _, rfl, Or.inr (Or.inr rfl)⟩
  | .object ((_, _) :: _), _ => exact ⟨_, _, by rw [spell], Or.inr (Or.inr rfl)⟩

/-- No space is skipped in front of a spelled value. -/
theorem skipSpace_spell {v : Value} (h : spellable v = true) (rest : List Char) :
    skipSpace (spell v ++ rest) = spell v ++ rest := by
  obtain ⟨c, cs, hspell, hc⟩ := spell_head h
  rw [hspell, List.cons_append]
  exact skipSpace_cons (by rcases hc with rfl | rfl | rfl <;> decide) _

/-- No space is skipped in front of a spelled text. -/
theorem skipSpace_spellText (s : String) (rest : List Char) :
    skipSpace (spellText s ++ rest) = '"' :: (s.toList ++ '"' :: rest) := by
  rw [spellText, List.cons_append, skipSpace_cons (by decide), List.append_assoc,
    List.singleton_append]

mutual

/-- A spelled value is read back. -/
theorem valueAt_spell (v : Value) (h : spellable v = true) (rest : List Char) :
    valueAt (spell v ++ rest) = .ok (v, rest) := by
  match v, h with
  | .text s, h =>
    rw [spell, spellText, List.cons_append, List.append_assoc, valueAt_text, List.singleton_append,
      textAt_of_plain h]
    rfl
  | .list [], _ =>
    rw [spell, List.cons_append, valueAt_list]
    rfl
  | .list (v :: items), h =>
    rw [spellable, spellableItems, Bool.and_eq_true] at h
    obtain ⟨hv, hitems⟩ := h
    rw [spell, List.cons_append, valueAt_list, List.append_assoc, skipSpace_spell hv,
      itemsAt_spell v items hv hitems]
    -- The first item does not start with the end of the list.
    obtain ⟨c, cs, hspell, hc⟩ := spell_head hv
    rw [hspell, List.cons_append]
    rcases hc with rfl | rfl | rfl <;> rfl
  | .object [], _ =>
    rw [spell, List.cons_append, valueAt_object]
    rfl
  | .object ((key, v) :: fields), h =>
    have hspelled : spell (.object ((key, v) :: fields)) ++ rest =
        '\x7b' :: (spellText key ++ ':' :: (spell v ++ (spellFields fields ++ rest))) := by
      simp [spell]
    simp only [spellable, spellableFields, Bool.and_eq_true] at h
    obtain ⟨⟨hkey, hother⟩, hv, hfields⟩ := h
    rw [hspelled, valueAt_object, skipSpace_spellText,
      fieldsAt_spell [] key v fields (by simp) hkey hother hv hfields rest]
    rfl
termination_by sizeOf v

/-- Spelled items are read back. -/
theorem itemsAt_spell (v : Value) (items : List Value) (hv : spellable v = true)
    (hitems : spellableItems items = true) (rest : List Char) :
    itemsAt (spell v ++ (spellItems items ++ rest)) = .ok (v :: items, rest) := by
  rw [itemsAt_eq, skipSpace_spell hv, valueAt_spell v hv]
  cases items with
  | nil => rfl
  | cons w items =>
    rw [spellableItems, Bool.and_eq_true] at hitems
    simp only [Bind.bind, Except.bind, spellItems, List.cons_append, List.append_assoc]
    rw [skipSpace_cons (by decide)]
    simp only [itemsAt_spell w items hitems.1 hitems.2]
    rfl
termination_by sizeOf (v :: items)

/-- Spelled fields are read back, behind those that were read before. -/
theorem fieldsAt_spell (before : List (String × Value)) (key : String) (v : Value)
    (fields : List (String × Value))
    (hbefore : ∀ field ∈ before, ∀ field' ∈ (key, v) :: fields, field.1 ≠ field'.1)
    (hkey : key.toList.all isPlain = true) (hother : fields.all (·.1 != key) = true)
    (hv : spellable v = true) (hfields : spellableFields fields = true) (rest : List Char) :
    fieldsAt before (spellText key ++ ':' :: (spell v ++ (spellFields fields ++ rest))) =
      .ok (before ++ (key, v) :: fields, rest) := by
  have hput : Ordered.put (· == ·) key v before = before ++ [(key, v)] := by
    refine Ordered.put_of_not_holds ?_
    simp only [Ordered.holds, List.any_eq_false, beq_iff_eq]
    exact fun field hfield => hbefore field hfield (key, v) List.mem_cons_self
  rw [fieldsAt_eq, skipSpace_spellText]
  simp only [textAt_of_plain hkey, Bind.bind, Except.bind]
  rw [skipSpace_cons (by decide)]
  simp only [skipSpace_spell hv, valueAt_spell v hv, hput]
  match fields, hfields with
  | [], _ => rfl
  | (key', w) :: fields, hfields =>
    simp only [spellableFields, Bool.and_eq_true] at hfields
    obtain ⟨⟨hkey', hother'⟩, hw, hfields⟩ := hfields
    simp only [spellFields, List.cons_append]
    rw [skipSpace_cons (by decide)]
    simp only [List.append_assoc, List.cons_append]
    rw [fieldsAt_spell (before ++ [(key, v)]) key' w fields ?_ hkey' hother' hw hfields rest]
    · simp
    · intro field hfield field' hfield'
      rcases List.mem_append.mp hfield with hold | hlast
      · exact hbefore field hold field' (List.mem_cons_of_mem _ hfield')
      · rw [List.mem_singleton.mp hlast]
        exact (bne_iff_ne.mp (List.all_eq_true.mp hother field' hfield')).symm
termination_by sizeOf ((key, v) :: fields)

end

/-- **Reading undoes spelling.** A value that is made of plain texts, lists and objects is read back
from its spelling. -/
theorem read_spell {v : Value} (h : spellable v = true) :
    read (String.ofList (spell v)) = .ok v := by
  have hread := valueAt_spell v h []
  rw [List.append_nil] at hread
  have hskip := skipSpace_spell h []
  rw [List.append_nil] at hskip
  rw [read_eq, String.toList_ofList, hskip, hread]
  · rfl
  · obtain ⟨c, cs, hspell, hc⟩ := spell_head h
    rw [String.toList_ofList, hspell]
    rcases hc with rfl | rfl | rfl <;> simp

end ProtocolPages.Json
