import ProtocolPages.Proofs.TypeReading

/-!
# How deep a type can be

Reading a spelling enters at most one argument: the only one of a list. An argument is a stretch of
the spelling, and what is left out of it are the two brackets and at least the five letters of the
shortest list type. So the reader gets to its end on every text, malformed or not, and enters an
argument once for every list that it finds. Each list takes seven characters of its own.
-/

namespace ProtocolPages

/-- The spelling of a list type has at least five letters. -/
theorem ListKind.five_le_length {head : List Char} {kind : ListKind}
    (h : ofSpelling? (String.ofList head) = some kind) : 5 ≤ head.length := by
  have hspelled : kind.spelling = String.ofList head := by simpa using List.find?_some h
  have hletters : 5 ≤ kind.spelling.toList.length := by cases kind <;> decide
  rwa [hspelled, String.toList_ofList] at hletters

namespace TypeExpr

open Brackets

variable {basics : List String}

/-- The head, an argument and the brackets have room in the spelling. -/
theorem length_of_mem_splitGeneric {token head arg : List Char} {args : List (List Char)}
    (h : splitGeneric token = some (head, args)) (harg : arg ∈ args) :
    head.length + arg.length + 2 ≤ token.length := by
  obtain ⟨before, body, pieces, hgeneric, rfl, rfl⟩ := splitGeneric_eq_some_iff.mp h
  obtain ⟨piece, hpiece, rfl⟩ := List.mem_map.mp harg
  have hinside : piece <:+: body := hgeneric.divided.2.joined ▸ infix_intercalate hpiece
  have hbody := hinside.length_le
  have hhead := Text.length_stripChars_le before
  have hstrip := Text.length_stripChars_le piece
  rw [hgeneric.spelled, List.length_append, List.length_cons, List.length_append,
    List.length_singleton]
  omega

/-! ## Entering an argument -/

/-- Reading a spelling enters an argument: without the blanks around it the spelling is no basic
one, and splits into the spelling of a list type and this only argument. -/
inductive Enters (basics : List String) (raw arg : List Char) : Prop where
  | argument {head : List Char} {kind : ListKind}
    (hbasic : String.ofList (Text.stripChars raw) ∉ basics)
    (hsplit : splitGeneric (Text.stripChars raw) = some (head, [arg]))
    (hkind : ListKind.ofSpelling? (String.ofList head) = some kind)

section Enters

variable {raw arg : List Char}

/-- An argument that is entered is a stretch of the spelling. -/
theorem Enters.isInfix (h : Enters basics raw arg) : arg <:+: Text.stripChars raw := by
  obtain ⟨-, hsplit, -⟩ := h
  exact infix_of_mem_splitGeneric hsplit (List.mem_singleton_self arg)

/-- An argument that is entered is shorter than the spelling by seven characters at least. -/
theorem Enters.length_add_seven_le (h : Enters basics raw arg) :
    arg.length + 7 ≤ (Text.stripChars raw).length := by
  obtain ⟨-, hsplit, hkind⟩ := h
  have hroom := length_of_mem_splitGeneric hsplit (List.mem_singleton_self arg)
  have hhead := ListKind.five_le_length hkind
  omega

/-- The shortest list type takes no more than these seven. -/
example : Enters [] "qlist<a>".toList "a".toList ∧
    "a".toList.length + 7 = "qlist<a>".toList.length := by
  have hsplit : splitGeneric (Text.stripChars "qlist<a>".toList) =
      some ("qlist".toList, ["a".toList]) := by decide
  have hkind : ListKind.ofSpelling? (String.ofList "qlist".toList) = some .qList := by decide
  exact ⟨.argument (by decide) hsplit hkind, by decide⟩

/-- What enters an argument is read as a list of what the argument is read as. -/
theorem Enters.exists_list (h : Enters basics raw arg) (inner : List Char → TypeExpr) :
    ∃ kind, shape basics inner (Text.stripChars raw) = list kind (inner arg) := by
  obtain ⟨hbasic, hsplit, hkind⟩ := h
  exact ⟨_, shape_of_list hbasic hsplit hkind⟩

/-- Nothing is asked of the reader but the arguments that are entered. -/
theorem shape_congr {inner inner' : List Char → TypeExpr}
    (h : ∀ arg, Enters basics raw arg → inner arg = inner' arg) :
    shape basics inner (Text.stripChars raw) = shape basics inner' (Text.stripChars raw) := by
  -- Of all the shapes, only a list holds what an argument was read as.
  by_cases hbasic : String.ofList (Text.stripChars raw) ∈ basics
  · rw [shape_of_mem hbasic, shape_of_mem hbasic]
  · cases hsplit : splitGeneric (Text.stripChars raw) with
    | none => simp only [shape, hsplit]
    | some parts =>
      obtain ⟨head, args⟩ := parts
      cases args with
      | nil => simp only [shape, hsplit]
      | cons arg others =>
        by_cases hlist : ∃ kind, ListKind.ofSpelling? (String.ofList head) = some kind ∧ others = []
        · obtain ⟨kind, hkind, rfl⟩ := hlist
          rw [shape_of_list hbasic hsplit hkind, shape_of_list hbasic hsplit hkind,
            h arg ⟨hbasic, hsplit, hkind⟩]
        · have hmany : ∀ kind, ListKind.ofSpelling? (String.ofList head) = some kind →
              others ≠ [] := fun kind hkind hnone => hlist ⟨kind, hkind, hnone⟩
          rw [shape_of_other hbasic hsplit hmany, shape_of_other hbasic hsplit hmany]

/-- A list is read by entering its argument. -/
theorem exists_enters_of_list {kind : ListKind} {inner : TypeExpr}
    (h : ofChars basics raw = list kind inner) :
    ∃ arg, Enters basics raw arg ∧ ofChars basics arg = inner := by
  obtain ⟨head, arg, hsplit, hkind, hinner⟩ := exists_argument_of_list h
  refine ⟨arg, ⟨fun hbasic => ?_, hsplit, hkind⟩, hinner⟩
  rw [ofChars_eq_shape, shape_of_mem hbasic] at h
  cases h

/-- Each argument that is entered belongs to one list. -/
theorem Enters.length_lists (h : Enters basics raw arg) :
    (ofChars basics raw).lists.length = (ofChars basics arg).lists.length + 1 := by
  obtain ⟨kind, hlist⟩ := h.exists_list (ofChars basics)
  rw [ofChars_eq_shape, hlist, lists, List.length_cons]

/-- A type without lists is read without entering anything. -/
theorem not_enters_of_lists_eq_nil (h : (ofChars basics raw).lists = []) (arg : List Char) :
    ¬Enters basics raw arg := by
  intro henters
  have hlength := henters.length_lists
  rw [h, List.length_nil] at hlength
  omega

end Enters

/-! ## Entering one argument after another -/

/-- The reader gets from one spelling to another by entering `n` arguments, each inside the one
before. -/
inductive Descends (basics : List String) : Nat → List Char → List Char → Prop where
  | refl (raw : List Char) : Descends basics 0 raw raw
  | enter {n : Nat} {raw arg last : List Char} (hfirst : Enters basics raw arg)
    (hrest : Descends basics n arg last) : Descends basics (n + 1) raw last

section Descends

variable {n : Nat} {raw last : List Char}

/-- Every argument on the way takes seven characters of the spelling. -/
theorem Descends.length_le (h : Descends basics n raw last) :
    (Text.stripChars last).length + 7 * n ≤ (Text.stripChars raw).length := by
  induction h with
  | refl raw => exact Nat.le_refl _
  | @enter n raw arg last hfirst _ ih =>
    have hshorter := hfirst.length_add_seven_le
    have hstrip := Text.length_stripChars_le arg
    omega

/-- The way to the end is as long as the type is deep. -/
theorem Descends.eq_length_lists (h : Descends basics n raw last)
    (hend : ∀ next, ¬Enters basics last next) : n = (ofChars basics raw).lists.length := by
  induction h with
  | refl raw =>
    cases hread : ofChars basics raw with
    | list kind inner =>
      obtain ⟨arg, harg, -⟩ := exists_enters_of_list hread
      exact absurd harg (hend arg)
    | basic | holder | named => rfl
  | enter hfirst _ ih => rw [ih hend, hfirst.length_lists]

/-- There is a way to the end of every spelling. -/
theorem exists_descends {e : TypeExpr} (h : ofChars basics raw = e) :
    ∃ last, Descends basics e.lists.length raw last ∧ ∀ next, ¬Enters basics last next := by
  -- Each list of the type is an argument on the way, so the induction is on the type.
  induction e generalizing raw with
  | list kind inner ih =>
    obtain ⟨arg, harg, hinner⟩ := exists_enters_of_list h
    obtain ⟨last, hdescends, hend⟩ := ih hinner
    exact ⟨last, .enter harg hdescends, hend⟩
  | basic name => exact ⟨raw, .refl raw, not_enters_of_lists_eq_nil (by rw [h]; rfl)⟩
  | holder inner text => exact ⟨raw, .refl raw, not_enters_of_lists_eq_nil (by rw [h]; rfl)⟩
  | named name => exact ⟨raw, .refl raw, not_enters_of_lists_eq_nil (by rw [h]; rfl)⟩

end Descends

/-- **Reading ends, and a type is no deeper than its spelling is long.** Whatever the text and the
basic spellings, the reader needs to know of nothing but the arguments that it enters. Such an
argument is a stretch of the text without the blanks around it, and shorter by seven characters at
least. One behind the other, no more arguments can be entered than the text has room for; the way to
the end is as long as the type has lists, so each of its lists takes seven characters. -/
theorem reading_depth_bounded (basics : List String) (raw : String) :
    (∀ inner, (∀ arg, Enters basics raw.toList arg → inner arg = ofChars basics arg) →
      ofSpelling basics raw = shape basics inner (Text.strip raw).toList) ∧
    (∀ arg, Enters basics raw.toList arg →
      (∃ kind, ofSpelling basics raw = list kind (ofChars basics arg)) ∧
      arg <:+: (Text.strip raw).toList ∧ arg.length + 7 ≤ (Text.strip raw).length) ∧
    (∀ n last, Descends basics n raw.toList last → 7 * n ≤ (Text.strip raw).length) ∧
    (∀ n, (∃ last, Descends basics n raw.toList last ∧ ∀ next, ¬Enters basics last next) ↔
      n = (ofSpelling basics raw).lists.length) ∧
    7 * (ofSpelling basics raw).lists.length ≤ (Text.strip raw).length := by
  have hlength : (Text.strip raw).length = (Text.stripChars raw.toList).length := by
    rw [← String.length_toList, Text.toList_strip]
  have hbound (n : Nat) (last : List Char) (h : Descends basics n raw.toList last) :
      7 * n ≤ (Text.strip raw).length := by
    have hroom := h.length_le
    omega
  have hread : ofChars basics raw.toList = ofSpelling basics raw := rfl
  obtain ⟨last, hdescends, hend⟩ := exists_descends hread
  rw [Text.toList_strip]
  refine ⟨fun inner hinner => ?_, fun arg harg => ?_, hbound, fun n => ?_, hbound _ last hdescends⟩
  · rw [ofSpelling, ofChars_eq_shape]
    exact shape_congr fun arg harg => (hinner arg harg).symm
  · obtain ⟨kind, hlist⟩ := harg.exists_list (ofChars basics)
    refine ⟨⟨kind, ?_⟩, harg.isInfix, hlength ▸ harg.length_add_seven_le⟩
    rw [ofSpelling, ofChars_eq_shape, hlist]
  · constructor
    · rintro ⟨other, hother, hstops⟩
      exact hother.eq_length_lists hstops
    · rintro rfl
      exact ⟨last, hdescends, hend⟩

end TypeExpr

end ProtocolPages
