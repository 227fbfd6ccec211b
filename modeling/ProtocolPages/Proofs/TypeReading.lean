import ProtocolPages.Proofs.Brackets

/-!
# Reading types

The argument of a list is balanced, has no outer comma and is not blank. The spelling of a list is
such a text again, so lists nest, and each of them is read as the list of what its argument is read
as, however many blanks surround the argument. From this it follows when a type that was read is
read again from its own spelling: always, unless one of its lists spells a basic type.
-/

namespace ProtocolPages

/-! ## Arguments -/

namespace Brackets

/-- A text that can be the only argument of a generic spelling. -/
structure IsArgument (cs : List Char) : Prop extends IsPiece cs where
  /-- There is something other than blanks. -/
  filled : ¬Text.Blank cs

instance (cs : List Char) : Decidable (IsArgument cs) :=
  decidable_of_iff (IsPiece cs ∧ ¬Text.Blank cs)
    ⟨fun h => ⟨h.1, h.2⟩, fun h => ⟨h.toIsPiece, h.filled⟩⟩

/-- Text without brackets and commas is a piece. -/
theorem isPiece_of_not_mem {cs : List Char} (hopen : '<' ∉ cs) (hclose : '>' ∉ cs)
    (hcomma : ',' ∉ cs) : IsPiece cs := by
  refine ⟨balanced_of_not_mem hopen hclose, ?_⟩
  rintro ⟨before, after, rfl, -⟩
  exact hcomma (by simp)

/-- Blanks are a piece. -/
theorem isPiece_of_blank {cs : List Char} (h : Text.Blank cs) : IsPiece cs :=
  isPiece_of_not_mem (fun hmem => absurd (h _ hmem) (by decide))
    (fun hmem => absurd (h _ hmem) (by decide)) fun hmem => absurd (h _ hmem) (by decide)

/-- An outer comma stays one behind a text of depth zero. -/
theorem OuterComma.middle {a cs b : List Char} (h : OuterComma cs) (ha : depth a = 0) :
    OuterComma (a ++ cs ++ b) := by
  obtain ⟨before, after, rfl, hbefore⟩ := h
  refine ⟨a ++ before, after ++ b, by simp, ?_⟩
  rw [depth_append, ha, hbefore]
  rfl

/-- Pieces one after the other make a piece. -/
theorem IsPiece.append {a b : List Char} (ha : IsPiece a) (hb : IsPiece b) : IsPiece (a ++ b) := by
  refine ⟨ha.toBalanced.append hb.toBalanced, ?_⟩
  rintro ⟨before, after, hab, hbefore⟩
  rcases List.append_eq_append_iff.mp hab with ⟨rest, rfl, hrest⟩ | ⟨rest, rfl, hrest⟩
  · rw [depth_append, ha.closed] at hbefore
    exact hb.noComma ⟨rest, after, hrest, by omega⟩
  · cases rest with
    | nil => exact hb.noComma ⟨[], after, hrest.symm, rfl⟩
    | cons c rest =>
      obtain ⟨rfl, -⟩ := List.cons.inj hrest
      exact ha.noComma ⟨before, rest, rfl, hbefore⟩

/-- A balanced text in brackets is a piece, whatever commas it has. -/
theorem Balanced.bracketed {cs : List Char} (h : Balanced cs) :
    IsPiece ('<' :: (cs ++ ['>'])) := by
  -- Behind the opening bracket and up to the closing one, at least one bracket is open.
  have hinside (before : List Char) (hbefore : before <+: cs) : 0 < depth ('<' :: before) := by
    have hnonneg := h.nonneg before hbefore
    rw [depth_cons_open]
    omega
  have hclosed : depth ('<' :: (cs ++ ['>'])) = 0 := by
    rw [depth_cons_open, depth_append, depth_cons_close, depth_nil, h.closed]
    rfl
  refine ⟨⟨fun before hbefore => ?_, hclosed⟩, ?_⟩
  · rcases List.prefix_cons_iff.mp hbefore with rfl | ⟨rest, rfl, hrest⟩
    · exact Int.le_refl 0
    · rcases List.prefix_concat_iff.mp hrest with rfl | hrest
      · omega
      · have hpos := hinside rest hrest
        omega
  · rintro ⟨before, after, hcs, hbefore⟩
    cases before with
    | nil => simp at hcs
    | cons c rest =>
      obtain ⟨rfl, hrest⟩ := List.cons.inj hcs
      rcases List.prefix_concat_iff.mp ⟨',' :: after, hrest.symm⟩ with rfl | hrest
      · simp at hrest
      · have hpos := hinside rest hrest
        omega

/-- Blanks around an argument make no difference. -/
theorem isArgument_append_iff {left right : List Char} (hleft : Text.Blank left)
    (hright : Text.Blank right) (cs : List Char) :
    IsArgument (left ++ cs ++ right) ↔ IsArgument cs := by
  have hfilled : Text.Blank (left ++ cs ++ right) ↔ Text.Blank cs := by
    rw [← Text.stripChars_eq_nil_iff, Text.stripChars_append hleft hright,
      Text.stripChars_eq_nil_iff]
  have hbefore := (isPiece_of_blank hleft).closed
  have hafter := (isPiece_of_blank hright).closed
  constructor
  · intro h
    exact ⟨⟨h.toBalanced.middle hbefore hafter, fun hcomma => h.noComma (hcomma.middle hbefore)⟩,
      mt hfilled.mpr h.filled⟩
  · intro h
    exact ⟨((isPiece_of_blank hleft).append h.toIsPiece).append (isPiece_of_blank hright),
      mt hfilled.mp h.filled⟩

/-- An argument is one exactly if it is one without the blanks around it. -/
theorem isArgument_stripChars_iff {cs : List Char} :
    IsArgument (Text.stripChars cs) ↔ IsArgument cs := by
  obtain ⟨left, right, hleft, hright, hcs⟩ := Text.exists_blank_ends cs
  have h := isArgument_append_iff hleft hright (Text.stripChars cs)
  rw [← hcs] at h
  exact h.symm

end Brackets

/-! ## Reading lists -/

namespace ListKind

/-- The spelling of a list type tells which one it is. -/
theorem ofSpelling?_spelling (kind : ListKind) : ofSpelling? kind.spelling = some kind := by
  cases kind <;> decide

/-- The spelling of a list type is a piece without opening brackets, and not empty. -/
theorem spelling_plain (kind : ListKind) :
    kind.spelling.toList ≠ [] ∧ '<' ∉ kind.spelling.toList ∧
      Brackets.IsPiece kind.spelling.toList := by
  cases kind <;> decide

/-- The spelling of a list type has no blank at its ends. -/
theorem tight_spelling (kind : ListKind) : Text.Tight kind.spelling.toList := by
  cases kind <;> decide

end ListKind

namespace TypeExpr

open Brackets

variable {basics : List String}

/-- Each argument of a generic spelling can be the only one of another. -/
theorem isArgument_of_mem_splitGeneric {token head arg : List Char} {args : List (List Char)}
    (h : splitGeneric token = some (head, args)) (harg : arg ∈ args) : IsArgument arg := by
  obtain ⟨before, body, pieces, hgeneric, -, rfl⟩ := splitGeneric_eq_some_iff.mp h
  obtain ⟨piece, hpiece, rfl⟩ := List.mem_map.mp harg
  exact isArgument_stripChars_iff.mpr
    ⟨hgeneric.divided.2.isPiece piece hpiece, hgeneric.filled piece hpiece⟩

/-- What a spelling without blanks at its ends is read as, given how its arguments are read. -/
def shape (basics : List String) (inner : List Char → TypeExpr) (token : List Char) : TypeExpr :=
  if basics.contains (String.ofList token) then basic (String.ofList token)
  else
    match splitGeneric token with
    | none => named (String.ofList token)
    | some (head, args) =>
      match ListKind.ofSpelling? (String.ofList head), args with
      | some kind, [arg] => list kind (inner arg)
      | _, arg :: _ =>
        if String.ofList head = holderHead then holder (String.ofList arg) (String.ofList token)
        else named (String.ofList token)
      | _, [] => named (String.ofList token)

section Shape

variable {inner : List Char → TypeExpr} {token head arg : List Char} {args : List (List Char)}

/-- A basic spelling is read as such. -/
theorem shape_of_mem (hbasic : String.ofList token ∈ basics) :
    shape basics inner token = basic (String.ofList token) :=
  if_pos (List.contains_iff_mem.mpr hbasic)

/-- A list spelling with one argument is read as a list. -/
theorem shape_of_list {kind : ListKind} (hbasic : String.ofList token ∉ basics)
    (hsplit : splitGeneric token = some (head, [arg]))
    (hkind : ListKind.ofSpelling? (String.ofList head) = some kind) :
    shape basics inner token = list kind (inner arg) := by
  rw [shape, if_neg (mt List.contains_iff_mem.mp hbasic), hsplit]
  simp only [hkind]

/-- Other spellings with arguments are holders or names. -/
theorem shape_of_other (hbasic : String.ofList token ∉ basics)
    (hsplit : splitGeneric token = some (head, arg :: args))
    (hlist : ∀ kind, ListKind.ofSpelling? (String.ofList head) = some kind → args ≠ []) :
    shape basics inner token =
      if String.ofList head = holderHead then holder (String.ofList arg) (String.ofList token)
      else named (String.ofList token) := by
  rw [shape, if_neg (mt List.contains_iff_mem.mp hbasic), hsplit]
  cases hkind : ListKind.ofSpelling? (String.ofList head) with
  | none => simp only [hkind]
  | some kind =>
    obtain ⟨second, rest, rfl⟩ := List.exists_cons_of_ne_nil (hlist kind hkind)
    simp only [hkind]

end Shape

/-- A spelling is read one level at a time. -/
theorem ofChars_eq_shape (raw : List Char) :
    ofChars basics raw = shape basics (ofChars basics) (Text.stripChars raw) := by
  -- The definition keeps the proof that it has split the spelling; the equation does without.
  fun_cases ofChars basics raw with
  | case1 name hbasic => exact (if_pos hbasic).symm
  | case2 name hbasic hsplit => rw [shape, if_neg hbasic, hsplit]
  | case3 name hbasic head kind arg hsplit hkind =>
    exact (shape_of_list (mt List.contains_iff_mem.mpr hbasic) hsplit hkind).symm
  | case4 name hbasic head arg args hsplit hhead hlist =>
    rw [shape_of_other (mt List.contains_iff_mem.mpr hbasic) hsplit, if_pos hhead]
    rintro kind hkind rfl
    exact hlist kind hsplit hkind rfl HEq.rfl
  | case5 name hbasic head arg args hsplit hhead hlist =>
    rw [shape_of_other (mt List.contains_iff_mem.mpr hbasic) hsplit, if_neg hhead]
    rintro kind hkind rfl
    exact hlist kind hsplit hkind rfl HEq.rfl
  | case6 name hbasic head hsplit =>
    rw [shape, if_neg hbasic, hsplit]
    cases hkind : ListKind.ofSpelling? (String.ofList head) <;> simp only [hkind, name]

/-- Blanks around a spelling make no difference. -/
theorem ofChars_stripChars (raw : List Char) :
    ofChars basics (Text.stripChars raw) = ofChars basics raw := by
  rw [ofChars_eq_shape, Text.stripChars_stripChars, ← ofChars_eq_shape]

/-- The spelling of a list with blanks around its brackets. -/
def paddedSpelling (kind : ListKind) (w₀ w₁ t w₂ : String) : String :=
  kind.spelling ++ w₀ ++ "<" ++ w₁ ++ t ++ w₂ ++ ">"

/-- The spelling of a list of what `t` spells. -/
def listSpelling (kind : ListKind) (t : String) : String :=
  kind.spelling ++ "<" ++ t ++ ">"

section Padded

variable {kind : ListKind} {w₀ w₁ t w₂ : String}

/-- The characters of a list spelling. -/
theorem toList_listSpelling (kind : ListKind) (t : String) :
    (listSpelling kind t).toList = kind.spelling.toList ++ '<' :: (t.toList ++ ['>']) := by
  simp [listSpelling]

/-- A list spelling without padding. -/
theorem paddedSpelling_empty (kind : ListKind) (t : String) :
    paddedSpelling kind "" "" t "" = listSpelling kind t := by
  simp [paddedSpelling, listSpelling]

/-- The spelling of a list has no blanks at its ends. -/
theorem tight_paddedSpelling (kind : ListKind) (w₀ w₁ t w₂ : String) :
    Text.Tight (paddedSpelling kind w₀ w₁ t w₂).toList := by
  constructor
  · intro c hc
    simp only [paddedSpelling, String.toList_append, List.append_assoc] at hc
    rw [List.head?_append_of_ne_nil _ kind.spelling_plain.1] at hc
    exact kind.tight_spelling.head c hc
  · intro c hc
    rw [paddedSpelling, String.toList_append, List.getLast?_append] at hc
    cases hc
    decide

/-- A list is split into the spelling of its kind and its argument, whatever blanks it has. -/
theorem splitGeneric_paddedSpelling (ht : IsArgument t.toList) (hw₀ : Text.Blank w₀.toList)
    (hw₁ : Text.Blank w₁.toList) (hw₂ : Text.Blank w₂.toList) :
    splitGeneric (paddedSpelling kind w₀ w₁ t w₂).toList =
      some (kind.spelling.toList, [Text.stripChars t.toList]) := by
  obtain ⟨hheaded, hunopened, -⟩ := kind.spelling_plain
  have hbody : IsArgument (w₁.toList ++ t.toList ++ w₂.toList) :=
    (isArgument_append_iff hw₁ hw₂ _).mpr ht
  have hgeneric : Generic (paddedSpelling kind w₀ w₁ t w₂).toList
      (kind.spelling.toList ++ w₀.toList) (w₁.toList ++ t.toList ++ w₂.toList)
      [w₁.toList ++ t.toList ++ w₂.toList] := by
    refine ⟨by simp [paddedSpelling], by simp [hheaded], ?_, hbody.toBalanced,
      ⟨List.cons_ne_nil _ _, hbody.divides⟩, List.forall_mem_singleton.mpr hbody.filled⟩
    intro hmem
    rcases List.mem_append.mp hmem with hmem | hmem
    · exact hunopened hmem
    · exact absurd (hw₀ _ hmem) (by decide)
  have hhead : Text.stripChars (kind.spelling.toList ++ w₀.toList) = kind.spelling.toList := by
    have hstrip := Text.stripChars_append (List.forall_mem_nil _) hw₀ kind.spelling.toList
    rwa [List.nil_append, Text.stripChars_of_tight kind.tight_spelling] at hstrip
  refine splitGeneric_eq_some_iff.mpr ⟨_, _, _, hgeneric, hhead.symm, ?_⟩
  rw [List.map_singleton, Text.stripChars_append hw₁ hw₂]

/-- A list is read as the list of its argument, whatever blanks it has. -/
theorem ofSpelling_paddedSpelling (ht : IsArgument t.toList) (hw₀ : Text.Blank w₀.toList)
    (hw₁ : Text.Blank w₁.toList) (hw₂ : Text.Blank w₂.toList)
    (hbasic : paddedSpelling kind w₀ w₁ t w₂ ∉ basics) :
    ofSpelling basics (paddedSpelling kind w₀ w₁ t w₂) = list kind (ofSpelling basics t) := by
  rw [ofSpelling, ofChars_eq_shape,
    Text.stripChars_of_tight (tight_paddedSpelling kind w₀ w₁ t w₂),
    shape_of_list ?_ (splitGeneric_paddedSpelling ht hw₀ hw₁ hw₂) ?_, ofChars_stripChars,
    ofSpelling]
  · rwa [String.ofList_toList]
  · rw [String.ofList_toList, ListKind.ofSpelling?_spelling]

/-- The spelling of a list is basic before it is that of a list. -/
theorem ofSpelling_listSpelling_of_mem (hbasic : listSpelling kind t ∈ basics) :
    ofSpelling basics (listSpelling kind t) = basic (listSpelling kind t) := by
  have htoken : Text.stripChars (listSpelling kind t).toList = (listSpelling kind t).toList := by
    rw [← paddedSpelling_empty]
    exact Text.stripChars_of_tight (tight_paddedSpelling kind "" "" t "")
  rw [ofSpelling, ofChars_eq_shape, htoken, shape_of_mem, String.ofList_toList]
  rwa [String.ofList_toList]

/-- Otherwise a list is read as the list of its argument. -/
theorem ofSpelling_listSpelling (ht : IsArgument t.toList)
    (hbasic : listSpelling kind t ∉ basics) :
    ofSpelling basics (listSpelling kind t) = list kind (ofSpelling basics t) := by
  rw [← paddedSpelling_empty] at hbasic ⊢
  exact ofSpelling_paddedSpelling ht Text.blank_empty Text.blank_empty Text.blank_empty hbasic

end Padded

/-- The spelling of a list can be the argument of another. -/
theorem isArgument_listSpelling (kind : ListKind) {t : String} (h : Balanced t.toList) :
    IsArgument (listSpelling kind t).toList := by
  rw [toList_listSpelling]
  refine ⟨kind.spelling_plain.2.2.append h.bracketed, fun hblank => ?_⟩
  have hopen := hblank '<' (by simp)
  exact absurd hopen (by decide)

/-! ## Reading a type again -/

/-- The lists within a type, itself included. -/
def lists : TypeExpr → List TypeExpr
  | list kind inner => list kind inner :: inner.lists
  | basic _ => []
  | holder _ _ => []
  | named _ => []

/-- A type without lists is spelled as it was read, without the blanks around it. -/
theorem spelling_ofChars {raw : List Char} (h : (ofChars basics raw).lists = []) :
    (ofChars basics raw).spelling = String.ofList (Text.stripChars raw) := by
  revert h
  fun_cases ofChars basics raw with
  | case1 => exact fun _ => rfl
  | case2 => exact fun _ => rfl
  | case3 => exact fun h => absurd h (List.cons_ne_nil _ _)
  | case4 => exact fun _ => rfl
  | case5 => exact fun _ => rfl
  | case6 => exact fun _ => rfl

/-- What is read as a list has an argument, which is read as the type of the elements. -/
theorem exists_argument_of_list {raw : List Char} {kind : ListKind} {inner : TypeExpr}
    (h : ofChars basics raw = list kind inner) :
    ∃ head arg, splitGeneric (Text.stripChars raw) = some (head, [arg]) ∧
      ListKind.ofSpelling? (String.ofList head) = some kind ∧ ofChars basics arg = inner := by
  revert h
  fun_cases ofChars basics raw with
  | case1 => exact fun h => by cases h
  | case2 => exact fun h => by cases h
  | case3 name _ head kind' arg hsplit hkind =>
    intro h
    cases h
    exact ⟨head, arg, hsplit, hkind, rfl⟩
  | case4 => exact fun h => by cases h
  | case5 => exact fun h => by cases h
  | case6 => exact fun h => by cases h

/-- What is read from an argument is spelled as an argument. -/
theorem isArgument_spelling {raw : List Char} (h : IsArgument raw) :
    IsArgument (ofChars basics raw).spelling.toList := by
  have hname := isArgument_stripChars_iff.mpr h
  fun_induction ofChars basics raw with
  | case1 raw name => rwa [spelling, String.toList_ofList]
  | case2 raw name => rwa [spelling, String.toList_ofList]
  | case3 raw name _ head kind arg hsplit _ _ _ ih =>
    have harg := isArgument_of_mem_splitGeneric hsplit (List.mem_singleton_self arg)
    exact isArgument_listSpelling kind (ih harg (isArgument_stripChars_iff.mpr harg)).toBalanced
  | case4 raw name => rwa [spelling, String.toList_ofList]
  | case5 raw name => rwa [spelling, String.toList_ofList]
  | case6 raw name => rwa [spelling, String.toList_ofList]

/-- A type without lists is read again from its spelling. -/
theorem ofSpelling_spelling_of_lists_eq_nil {raw : List Char} {e : TypeExpr}
    (he : ofChars basics raw = e) (h : e.lists = []) : ofSpelling basics e.spelling = e := by
  subst he
  rw [spelling_ofChars h, ofSpelling, String.toList_ofList, ofChars_stripChars]

/-- A list is read again from its spelling exactly if that spells no basic type and the type of the
elements is read again. -/
theorem ofSpelling_spelling_list_iff {kind : ListKind} {inner : TypeExpr}
    (h : IsArgument inner.spelling.toList) :
    ofSpelling basics (list kind inner).spelling = list kind inner ↔
      (list kind inner).spelling ∉ basics ∧ ofSpelling basics inner.spelling = inner := by
  by_cases hbasic : listSpelling kind inner.spelling ∈ basics
  · have hread : ofSpelling basics (list kind inner).spelling = basic (list kind inner).spelling :=
      ofSpelling_listSpelling_of_mem hbasic
    rw [hread]
    exact iff_of_false (fun h => by cases h) fun h => h.1 hbasic
  · have hread : ofSpelling basics (list kind inner).spelling =
        list kind (ofSpelling basics inner.spelling) := ofSpelling_listSpelling h hbasic
    rw [hread, list.injEq]
    exact ⟨fun h => ⟨hbasic, h.2⟩, fun h => ⟨rfl, h.2⟩⟩

/-- A type that was read is read again from its spelling exactly if none of its lists spells a basic
type. -/
theorem ofSpelling_spelling_iff {raw : List Char} {e : TypeExpr} (he : ofChars basics raw = e) :
    ofSpelling basics e.spelling = e ↔ ∀ node ∈ e.lists, node.spelling ∉ basics := by
  induction e generalizing raw with
  | list kind inner ih =>
    obtain ⟨head, arg, hsplit, -, rfl⟩ := exists_argument_of_list he
    have harg := isArgument_of_mem_splitGeneric hsplit (List.mem_singleton_self arg)
    rw [ofSpelling_spelling_list_iff (isArgument_spelling harg), ih rfl, lists,
      List.forall_mem_cons]
  | basic name =>
    exact iff_of_true (ofSpelling_spelling_of_lists_eq_nil he rfl) (List.forall_mem_nil _)
  | holder inner raw =>
    exact iff_of_true (ofSpelling_spelling_of_lists_eq_nil he rfl) (List.forall_mem_nil _)
  | named name =>
    exact iff_of_true (ofSpelling_spelling_of_lists_eq_nil he rfl) (List.forall_mem_nil _)

/-- **Reading undoes spelling.** A type that was read is read again from its own spelling exactly if
none of its lists spells a basic type; and if it has no lists, it is spelled as it was read, without
the blanks around it. -/
theorem reading_undoes_spelling (basics : List String) (raw : String) :
    (ofSpelling basics (ofSpelling basics raw).spelling = ofSpelling basics raw ↔
      ∀ node ∈ (ofSpelling basics raw).lists, node.spelling ∉ basics) ∧
    ((ofSpelling basics raw).lists = [] → (ofSpelling basics raw).spelling = Text.strip raw) :=
  ⟨ofSpelling_spelling_iff rfl, spelling_ofChars⟩

/-- Lists around a holder are read again from a spelling without the blanks. A list of bytes spelled
with blanks is not, since its own spelling is a basic one. -/
theorem reading_undoes_spelling_nested :
    read " qlist < std_list<any<Gathering, b<c,d>> > >" =
      list .qList (list .stdList (holder "Gathering" "any<Gathering, b<c,d>>")) ∧
    read "qlist<std_list<any<Gathering, b<c,d>>>>" =
      list .qList (list .stdList (holder "Gathering" "any<Gathering, b<c,d>>")) ∧
    read "qlist<byte>" ≠ read "qlist< byte >" ∧
    (read " any<Gathering, b<c,d>> ").spelling = "any<Gathering, b<c,d>>" := by
  have hnested : ofSpelling Glossary.basicSpellings " qlist < std_list<any<Gathering, b<c,d>> > >" =
      list .qList (list .stdList (holder "Gathering" "any<Gathering, b<c,d>>")) := by
    decide +kernel
  have hbytes : ofSpelling Glossary.basicSpellings "qlist< byte >" =
      list .qList (basic "byte") := by
    decide +kernel
  have hholder : ofSpelling Glossary.basicSpellings " any<Gathering, b<c,d>> " =
      holder "Gathering" "any<Gathering, b<c,d>>" := by
    decide +kernel
  have hagain := (reading_undoes_spelling Glossary.basicSpellings
    " qlist < std_list<any<Gathering, b<c,d>> > >").1
  have hlost := (reading_undoes_spelling Glossary.basicSpellings "qlist< byte >").1
  have hkept := (reading_undoes_spelling Glossary.basicSpellings " any<Gathering, b<c,d>> ").2
  rw [hnested] at hagain
  rw [hbytes] at hlost
  rw [hholder] at hkept
  refine ⟨hnested, hagain.mpr (by decide), ?_, ?_⟩
  · rw [read, read, hbytes]
    exact mt hlost.mp (by decide)
  · rw [read, hholder, hkept rfl]
    decide

end TypeExpr

end ProtocolPages
