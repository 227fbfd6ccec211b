import ProtocolPages.Proofs.CrossReferences
import ProtocolPages.Proofs.TypeReading

/-!
# Brackets survive resolution

Resolution replaces names, puts links around them and wraps lists, and it cuts a holder down to its
first argument. None of this can break or mend the brackets of a spelling. Only the brackets of a
text matter to this question, so texts are compared by what is left of them when everything else is
taken out. Lists and holders are read from balanced spellings only. All other spellings keep their
brackets: a link to a record repeats them, and the names of the glossary have none.
-/

namespace ProtocolPages

/-! ## The brackets of a text -/

namespace Brackets

/-- Whether the character is an angle bracket. -/
def isBracket (c : Char) : Bool :=
  c = '<' ∨ c = '>'

/-- The brackets of a text, in order. -/
def skeleton (cs : List Char) : List Char :=
  cs.filter isBracket

/-- The text has no angle bracket. -/
def Unbracketed (cs : List Char) : Prop :=
  '<' ∉ cs ∧ '>' ∉ cs

instance (cs : List Char) : Decidable (Unbracketed cs) :=
  inferInstanceAs (Decidable (_ ∧ _))

@[simp] theorem skeleton_append (a b : List Char) :
    skeleton (a ++ b) = skeleton a ++ skeleton b :=
  List.filter_append ..

/-- A text has no bracket exactly if no bracket is left of it. -/
theorem skeleton_eq_nil_iff {cs : List Char} : skeleton cs = [] ↔ Unbracketed cs := by
  rw [skeleton, List.filter_eq_nil_iff]
  constructor
  · intro h
    exact ⟨fun hopen => h '<' hopen (by decide), fun hclose => h '>' hclose (by decide)⟩
  · rintro ⟨hopen, hclose⟩ c hc hbracket
    rcases of_decide_eq_true hbracket with rfl | rfl
    · exact hopen hc
    · exact hclose hc

/-- The depth of a text is that of its brackets. -/
theorem depth_skeleton (cs : List Char) : depth (skeleton cs) = depth cs := by
  rw [depth, depth, skeleton, List.count_filter (by decide), List.count_filter (by decide)]

/-- A text is balanced exactly if its brackets are. -/
theorem balanced_skeleton_iff {cs : List Char} : Balanced (skeleton cs) ↔ Balanced cs := by
  constructor
  · intro h
    refine ⟨fun before hbefore => ?_, ?_⟩
    · rw [← depth_skeleton]
      exact h.nonneg _ (hbefore.filter isBracket)
    · rw [← depth_skeleton]
      exact h.closed
  · intro h
    refine ⟨?_, ?_⟩
    · -- What comes first among the brackets is what is left of some beginning of the text.
      rintro before ⟨after, hparts⟩
      obtain ⟨start, rest, rfl, rfl, -⟩ := List.filter_eq_append_iff.mp hparts.symm
      rw [← skeleton, depth_skeleton]
      exact h.nonneg start (List.prefix_append start rest)
    · rw [depth_skeleton]
      exact h.closed

/-- Texts with the same brackets are balanced alike. -/
theorem balanced_congr {a b : List Char} (h : skeleton a = skeleton b) :
    Balanced a ↔ Balanced b := by
  rw [← balanced_skeleton_iff, h, balanced_skeleton_iff]

/-- A text written twice is balanced exactly if it is balanced. -/
theorem balanced_append_self_iff {cs : List Char} : Balanced (cs ++ cs) ↔ Balanced cs := by
  constructor
  · intro h
    refine ⟨fun before hbefore => h.nonneg before (hbefore.trans (List.prefix_append cs cs)), ?_⟩
    have hclosed := h.closed
    rw [depth_append] at hclosed
    omega
  · intro h
    exact h.append h

/-- A balanced text stays so in brackets, behind a text that has none. -/
theorem Balanced.wrap {head cs : List Char} (h : Balanced cs) (hhead : Unbracketed head) :
    Balanced (head ++ '<' :: (cs ++ ['>'])) :=
  (balanced_of_not_mem hhead.1 hhead.2).append h.bracketed.toBalanced

instance (cs : List Char) : Decidable (Balanced cs) :=
  decidable_of_iff ((TypeExpr.splitBody 0 [] cs).isSome = true) <| by
    rw [Option.isSome_iff_exists]
    constructor
    · rintro ⟨pieces, hpieces⟩
      exact (TypeExpr.splitBody_eq_some_iff.mp hpieces).2.balanced
    · intro h
      exact TypeExpr.exists_splitBody h.closing

end Brackets

open Brackets

namespace Text

/-- Blanks are no brackets. -/
theorem Blank.skeleton_eq {cs : List Char} (h : Blank cs) : skeleton cs = [] :=
  skeleton_eq_nil_iff.mpr
    ⟨fun hopen => absurd (h _ hopen) (by decide), fun hclose => absurd (h _ hclose) (by decide)⟩

/-- Stripping takes off no bracket. -/
@[simp] theorem skeleton_stripChars (cs : List Char) :
    skeleton (stripChars cs) = skeleton cs := by
  obtain ⟨left, right, hleft, hright, hcs⟩ := exists_blank_ends cs
  have hskeleton := congrArg skeleton hcs
  rw [skeleton_append, skeleton_append, hleft.skeleton_eq, hright.skeleton_eq, List.nil_append,
    List.append_nil] at hskeleton
  exact hskeleton.symm

/-- Lower-casing a character keeps a bracket and makes none. -/
theorem skeleton_lowerBetween (before : List Char) (c : Char) (after : List Char) :
    skeleton (lowerBetween before c after) = skeleton [c] := by
  by_cases hbracket : isBracket c = true
  · have hkept : lowerBetween before c after = [c] := by
      rcases of_decide_eq_true hbracket with rfl | rfl
      · rw [lowerBetween, if_neg (by decide), if_neg (by decide)]
        decide
      · rw [lowerBetween, if_neg (by decide), if_neg (by decide)]
        decide
    rw [hkept]
  · have hnone : skeleton [c] = [] := by
      rw [skeleton, List.filter_cons_of_neg hbracket, List.filter_nil]
    rw [hnone, skeleton, List.filter_eq_nil_iff]
    intro d hd hmade
    have hlow : 0 < d.toNat ∧ d.toNat < 0x61 := by
      rcases of_decide_eq_true hmade with rfl | rfl <;> decide
    obtain rfl := eq_of_mem_lowerBetween hlow.1 hlow.2 hd
    exact hbracket hmade

/-- Lower-casing a text keeps its brackets. -/
theorem skeleton_lower (s : String) : skeleton (lower s).toList = skeleton s.toList := by
  have hafter (before cs : List Char) : skeleton (lowerAfter before cs) = skeleton cs := by
    induction cs generalizing before with
    | nil => rfl
    | cons c rest ih =>
      rw [lowerAfter, skeleton_append, skeleton_lowerBetween, ih, ← skeleton_append,
        List.singleton_append]
  rw [lower, String.toList_ofList, hafter]

end Text

/-! ## Resolved names -/

namespace Glossary

/-- The basic spellings are balanced. -/
theorem balanced_of_mem_basicSpellings :
    ∀ name ∈ basicSpellings, Balanced name.toList := by
  decide

/-- The documented name of a basic spelling has no bracket. -/
theorem unbracketed_rename : ∀ name ∈ basicSpellings, Unbracketed (rename name).toList := by
  decide

/-- Neither the names of the glossary nor their anchors have brackets. -/
theorem unbracketed_anchors :
    ∀ entry ∈ anchors, Unbracketed entry.1.toList ∧ Unbracketed entry.2.toList := by
  decide

end Glossary

/-- None of the texts that resolution puts around a type has an angle bracket. -/
def Settings.Unbracketed (s : Settings) : Prop :=
  ∀ field ∈ [Field.wikiBase, .commonTypesPage, .listStubType, .dataHolderStubType],
    Brackets.Unbracketed (s.get field).toList

instance (s : Settings) : Decidable s.Unbracketed :=
  inferInstanceAs (Decidable (∀ field ∈ _, _))

/-- The reference has balanced texts exactly if the spelling is balanced. -/
structure Reference.BalancedLike (r : Reference) (raw : List Char) : Prop where
  stub : Balanced r.stub.toList ↔ Balanced raw
  display : Balanced r.display.toList ↔ Balanced raw

namespace Resolver

variable {r : Resolver} {raw : List Char}

/-- The address of an entry has no bracket. -/
theorem skeleton_commonTypeUrl {settings : Settings} (h : settings.Unbracketed) {anchor : String}
    (hanchor : Unbracketed anchor.toList) :
    skeleton (settings.commonTypeUrl anchor).toList = [] := by
  have hbase : skeleton settings.wikiBase.toList = [] :=
    skeleton_eq_nil_iff.mpr (h .wikiBase (by decide))
  have hpage : skeleton settings.commonTypesPage.toList = [] :=
    skeleton_eq_nil_iff.mpr (h .commonTypesPage (by decide))
  have hslash : skeleton "/".toList = [] := by decide
  have hsharp : skeleton "#".toList = [] := by decide
  simp only [Settings.commonTypeUrl, String.toList_append, skeleton_append, hbase, hpage, hslash,
    hsharp, skeleton_eq_nil_iff.mpr hanchor, List.append_nil]

/-- A link has the brackets of its text and of its target. -/
theorem skeleton_link (text target : String) :
    skeleton ("[" ++ text ++ "](" ++ target ++ ")").toList =
      skeleton text.toList ++ skeleton target.toList := by
  have hopening : skeleton "[".toList = [] := by decide
  have hmiddle : skeleton "](".toList = [] := by decide
  have hclosing : skeleton ")".toList = [] := by decide
  simp only [String.toList_append, skeleton_append, hopening, hmiddle, hclosing, List.nil_append,
    List.append_nil]

/-- The link to a record repeats the brackets of its name. -/
theorem balancedLike_localReference {name : String} (h : skeleton name.toList = skeleton raw) :
    (localReference name).BalancedLike raw := by
  refine ⟨balanced_congr h, ?_⟩
  have hsharp : skeleton "#".toList = [] := by decide
  have hanchor : skeleton ("#" ++ headingAnchor [name]).toList = skeleton raw := by
    rw [headingAnchor, List.map_singleton, String.intercalate_singleton, String.toList_append,
      skeleton_append, hsharp, Text.skeleton_lower, List.nil_append, h]
  have htwice : skeleton (localReference name).display.toList = skeleton (raw ++ raw) := by
    rw [localReference, skeleton_link, hanchor, h, skeleton_append]
  rw [balanced_congr htwice, balanced_append_self_iff]

/-- A name that has an entry has no brackets, and any other name is shown as it is. -/
theorem balancedLike_outerReference {settings : Settings} (hsettings : settings.Unbracketed)
    {name : String} (h : skeleton name.toList = skeleton raw) :
    (outerReference settings name).BalancedLike raw := by
  unfold outerReference
  split
  · next anchor hanchor =>
    obtain ⟨before, after, hentries, -⟩ := List.lookup_eq_some_iff.mp hanchor
    obtain ⟨-, hplain⟩ := Glossary.unbracketed_anchors (name, anchor) (by simp [hentries])
    refine ⟨balanced_congr h, balanced_congr ?_⟩
    rw [skeleton_link, skeleton_commonTypeUrl hsettings hplain, List.append_nil, h]
  · exact ⟨balanced_congr h, balanced_congr h⟩

/-- A name is shown and stubbed with the brackets that it has. -/
theorem balancedLike_nameReference (hsettings : r.settings.Unbracketed) {name : String}
    (h : skeleton name.toList = skeleton raw) : (r.nameReference name).BalancedLike raw := by
  by_cases hname : name ∈ r.locals
  · rw [nameReference_of_mem hname]
    exact balancedLike_localReference h
  · rw [nameReference_of_not_mem hname]
    exact balancedLike_outerReference hsettings h

end Resolver

/-! ## Resolved types -/

/-- A generic spelling whose head has no bracket is balanced. -/
theorem TypeExpr.balanced_of_splitGeneric {token head : List Char} {args : List (List Char)}
    (h : splitGeneric token = some (head, args)) (hhead : Unbracketed head) : Balanced token := by
  obtain ⟨before, body, pieces, hgeneric, rfl, -⟩ := splitGeneric_eq_some_iff.mp h
  rw [hgeneric.spelled]
  refine hgeneric.balanced.wrap ?_
  rwa [← skeleton_eq_nil_iff, Text.skeleton_stripChars, skeleton_eq_nil_iff] at hhead

/-- The spelling of a list type has no bracket. -/
theorem ListKind.unbracketed_of_ofSpelling? {head : List Char} {kind : ListKind}
    (h : ofSpelling? (String.ofList head) = some kind) : Unbracketed head := by
  have hspelling : kind.spelling = String.ofList head := by
    simpa using List.find?_some h
  have hplain : Unbracketed kind.spelling.toList := by
    cases kind <;> decide
  rwa [hspelling, String.toList_ofList] at hplain

namespace Resolver

variable {r : Resolver}

/-- The texts of balanced texts in brackets are balanced. -/
theorem balancedLike_listReference {settings : Settings} (hsettings : settings.Unbracketed)
    {element : Reference} {raw : List Char} (hraw : Balanced raw)
    (hstub : Balanced element.stub.toList) (hdisplay : Balanced element.display.toList) :
    (listReference settings element).BalancedLike raw := by
  have hanchor : Unbracketed Glossary.listAnchor.toList := by decide
  have hlink : Unbracketed
      ("[" ++ "List" ++ "](" ++ settings.commonTypeUrl Glossary.listAnchor ++ ")").toList := by
    rw [← skeleton_eq_nil_iff, skeleton_link, skeleton_commonTypeUrl hsettings hanchor]
    decide
  have hlist : Unbracketed settings.listStubType.toList := hsettings .listStubType (by decide)
  constructor
  · refine iff_of_true ?_ hraw
    have hbalanced := hstub.wrap hlist
    simpa [listReference] using hbalanced
  · refine iff_of_true ?_ hraw
    have hbalanced := hdisplay.wrap hlink
    simpa [listReference] using hbalanced

/-- The texts of a type are balanced exactly if the spelling that it was read from is. -/
theorem balancedLike_resolve (hsettings : r.settings.Unbracketed) (raw : List Char) :
    (r.resolve (.ofChars Glossary.basicSpellings raw)).BalancedLike raw := by
  have hstrip (cs : List Char) :
      skeleton (String.ofList (Text.stripChars cs)).toList = skeleton cs := by
    rw [String.toList_ofList, Text.skeleton_stripChars]
  -- The induction is over the lists around the innermost type.
  fun_induction TypeExpr.ofChars Glossary.basicSpellings raw with
  | case1 raw name hbasic =>
    have hmem : name ∈ Glossary.basicSpellings := List.contains_iff_mem.mp hbasic
    by_cases hlocal : name ∈ r.locals
    · rw [resolve_basic_of_mem hlocal]
      exact balancedLike_localReference (hstrip raw)
    · -- Another basic spelling is balanced, and so is its documented name, which has no brackets.
      have hname : Balanced raw :=
        (balanced_congr (hstrip raw)).mp (Glossary.balanced_of_mem_basicSpellings name hmem)
      obtain ⟨hopen, hclose⟩ := Glossary.unbracketed_rename name hmem
      have hrenamed := balanced_of_not_mem hopen hclose
      rw [resolve_basic_of_not_mem hlocal]
      have hlike : (r.nameReference (Glossary.rename name)).BalancedLike
          (Glossary.rename name).toList := balancedLike_nameReference hsettings rfl
      obtain ⟨hstub, hdisplay⟩ := hlike
      exact ⟨iff_of_true (hstub.mpr hrenamed) hname, iff_of_true (hdisplay.mpr hrenamed) hname⟩
  | case2 raw name _ _ => exact balancedLike_nameReference hsettings (hstrip raw)
  | case3 raw name _ head kind arg hsplit hkind _ _ ih =>
    have hplain := ListKind.unbracketed_of_ofSpelling? hkind
    have hraw := TypeExpr.balanced_of_splitGeneric hsplit hplain
    have harg := TypeExpr.isArgument_of_mem_splitGeneric hsplit (List.mem_singleton_self arg)
    rw [balanced_congr (Text.skeleton_stripChars raw)] at hraw
    exact balancedLike_listReference hsettings hraw (ih.stub.mpr harg.toBalanced)
      (ih.display.mpr harg.toBalanced)
  | case4 raw name _ head arg args hsplit hhead _ =>
    have hplain : Unbracketed head := by
      have hholder : Unbracketed TypeExpr.holderHead.toList := by decide
      rwa [← hhead, String.toList_ofList] at hholder
    have hraw := TypeExpr.balanced_of_splitGeneric hsplit hplain
    rw [balanced_congr (Text.skeleton_stripChars raw)] at hraw
    have harg := TypeExpr.isArgument_of_mem_splitGeneric hsplit List.mem_cons_self
    refine ⟨iff_of_true ?_ hraw, balanced_congr (hstrip raw)⟩
    have hbalanced := harg.toBalanced.wrap (hsettings .dataHolderStubType (by decide))
    simpa [resolve, Settings.get] using hbalanced
  | case5 raw name => exact balancedLike_nameReference hsettings (hstrip raw)
  | case6 raw name => exact balancedLike_nameReference hsettings (hstrip raw)

end Resolver

/-- **Resolution neither breaks nor mends brackets.** If no text of the settings that is put around
a type has an angle bracket, the stub text of a spelling is balanced exactly if the spelling is, and
so is the text that is shown for it, whatever the names of the records. -/
theorem resolution_preserves_balance (r : Resolver) (raw : String)
    (hsettings : r.settings.Unbracketed) :
    (Balanced (r.resolveSpelling raw).stub.toList ↔ Balanced raw.toList) ∧
      (Balanced (r.resolveSpelling raw).display.toList ↔ Balanced raw.toList) := by
  obtain ⟨hstub, hdisplay⟩ := Resolver.balancedLike_resolve hsettings raw.toList
  exact ⟨hstub, hdisplay⟩

/-- A holder in a list stays balanced. A record whose name leaves a bracket open stays unbalanced,
and so does a spelling that closes a bracket first, although it opens as many as it closes. -/
theorem resolution_preserves_balance_nested :
    let r : Resolver := ⟨["Gathering", "a<b"], {}⟩
    r.settings.Unbracketed ∧
      (Balanced (r.resolveSpelling " qlist < any<Gathering, b<c,d>> >").stub.toList ∧
        Balanced (r.resolveSpelling " qlist < any<Gathering, b<c,d>> >").display.toList) ∧
      (¬Balanced (r.resolveSpelling "a<b").stub.toList ∧
        ¬Balanced (r.resolveSpelling "a<b").display.toList) ∧
      ¬Balanced (r.resolveSpelling "a><b").stub.toList ∧
        ¬Balanced (r.resolveSpelling "a><b").display.toList := by
  intro r
  have hsettings : r.settings.Unbracketed := by decide
  obtain ⟨hstub, hdisplay⟩ :=
    resolution_preserves_balance r " qlist < any<Gathering, b<c,d>> >" hsettings
  obtain ⟨hopenStub, hopenDisplay⟩ := resolution_preserves_balance r "a<b" hsettings
  obtain ⟨hcloseStub, hcloseDisplay⟩ := resolution_preserves_balance r "a><b" hsettings
  refine ⟨hsettings, ⟨hstub.mpr (by decide), hdisplay.mpr (by decide)⟩, ⟨?_, ?_⟩, ?_, ?_⟩
  · exact mt hopenStub.mp (by decide)
  · exact mt hopenDisplay.mp (by decide)
  · exact mt hcloseStub.mp (by decide)
  · exact mt hcloseDisplay.mp (by decide)

end ProtocolPages
