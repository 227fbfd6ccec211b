import ProtocolPages.Proofs.ShownText
import ProtocolPages.Proofs.Textual

/-!
# Cross references

A type in a document is shown as a link within the page if it means a record of the same document.
This is said by a relation with three rules, apart from the resolver: a name means the record of
that name, a basic spelling means the record of that name before all else, and failing that it means
the record of its documented name. A second relation says what is shown for a type, whatever it
means: a link to the record, a link to its entry on the wiki, or its spelling as it stands. Nothing
is escaped, so a type that spells a link within the page is shown as one too, without a record; for
all other types the link is there exactly if a record is meant. Around this the file follows every
type through the document: the tables, the stubs and the headings show what the type was resolved
to, the records that it is looked up among are those declared since the protocol before, and each of
them has its section.
-/

namespace ProtocolPages

/-! ## Lower-cased anchors -/

namespace Text

/-- Every small letter of the table lies behind the signs and capitals of ASCII. -/
theorem small_of_mem_caseRuns : ∀ run ∈ caseRuns, 0x61 ≤ (run.first : Int) + run.shift := by
  decide +kernel

/-- A sign or capital of ASCII is the small letter of no other character. -/
theorem eq_of_lowerChar_eq {c d : Char} (hpos : 0 < d.toNat) (hlow : d.toNat < 0x61)
    (h : lowerChar c = d) : c = d := by
  unfold lowerChar at h
  split at h
  · next run hrun =>
    have hsmall := small_of_mem_caseRuns run (List.mem_of_find?_eq_some hrun)
    obtain ⟨hcovers, -⟩ := List.find?_eq_some_iff_append.mp hrun
    simp only [CaseRun.covers, Bool.and_eq_true, decide_eq_true_eq] at hcovers
    obtain ⟨⟨hfirst, -⟩, -⟩ := hcovers
    exfalso
    by_cases hvalid : (c.toNat + run.shift).toNat.isValidChar
    · rw [Char.ofNat, dif_pos hvalid] at h
      have hcode : d.toNat = (c.toNat + run.shift).toNat := by
        rw [← h]
        rfl
      omega
    · -- A code that is no character would become zero.
      rw [Char.ofNat, dif_neg hvalid] at h
      rw [← h] at hpos
      exact absurd hpos (by decide)
  · exact h

/-- Lower-casing one character gives a sign or capital of ASCII only in place of itself. -/
theorem eq_of_mem_lowerBetween {before after : List Char} {c d : Char} (hpos : 0 < d.toNat)
    (hlow : d.toNat < 0x61) (h : d ∈ lowerBetween before c after) : c = d := by
  unfold lowerBetween at h
  split at h
  · split at h
    · obtain rfl := List.mem_singleton.mp h
      exact absurd hlow (by decide)
    · obtain rfl := List.mem_singleton.mp h
      exact absurd hlow (by decide)
  · split at h
    · simp only [List.mem_cons, List.not_mem_nil, or_false] at h
      rcases h with rfl | rfl
      · exact absurd hlow (by decide)
      · exact absurd hlow (by decide)
    · exact eq_of_lowerChar_eq hpos hlow (List.mem_singleton.mp h).symm

/-- Signs and capitals of ASCII in a lower-cased text stood in the text before. -/
theorem mem_of_mem_lower {s : String} {d : Char} (hpos : 0 < d.toNat) (hlow : d.toNat < 0x61)
    (h : d ∈ (lower s).toList) : d ∈ s.toList := by
  have hafter (before cs : List Char) (h : d ∈ lowerAfter before cs) : d ∈ cs := by
    induction cs generalizing before with
    | nil => cases h
    | cons c rest ih =>
      rcases List.mem_append.mp h with hfirst | hrest
      · rw [eq_of_mem_lowerBetween hpos hlow hfirst]
        exact List.mem_cons_self
      · exact List.mem_cons_of_mem c (ih _ hrest)
  rw [lower, String.toList_ofList] at h
  exact hafter [] s.toList h

end Text

/-! ## What a type means -/

namespace TypeExpr

/-- The type under all list wrappers. -/
def innermost : TypeExpr → TypeExpr
  | list _ inner => inner.innermost
  | basic name => basic name
  | holder inner raw => holder inner raw
  | named name => named name

/-- The number of list wrappers. -/
def depth : TypeExpr → Nat
  | list _ inner => inner.depth + 1
  | _ => 0

/-- The names that are looked up to resolve a type. -/
def lookedUp : TypeExpr → List String
  | list _ inner => inner.lookedUp
  | basic name => [name, Glossary.rename name]
  | holder _ _ => []
  | named name => [name]

/-- The type means the record of the given name, among records of the given names. -/
inductive Means (locals : List String) : TypeExpr → String → Prop
  /-- A name means the record of that name. -/
  | named {name : String} (h : name ∈ locals) : Means locals (named name) name
  /-- A basic spelling means the record of that name. -/
  | basic {name : String} (h : name ∈ locals) : Means locals (basic name) name
  /-- If there is none, it means the record of its documented name. -/
  | renamed {name : String} (hname : name ∉ locals) (h : Glossary.rename name ∈ locals) :
    Means locals (basic name) (Glossary.rename name)

section Means

variable {locals : List String} {e : TypeExpr} {name other : String}

/-- Only records are meant. -/
theorem Means.mem (h : e.Means locals name) : name ∈ locals := by
  cases h <;> assumption

/-- At most one record is meant. -/
theorem Means.unique (h : e.Means locals name) (hother : e.Means locals other) : other = name := by
  cases h with
  | named _ => cases hother; rfl
  | basic hname =>
    cases hother with
    | basic _ => rfl
    | renamed hnot _ => exact absurd hname hnot
  | renamed hnot _ =>
    cases hother with
    | basic hname => exact absurd hname hnot
    | renamed _ _ => rfl

end Means

end TypeExpr

/-! ## Links within the page -/

/-- A text shows a part exactly if the characters of the part are among its characters. -/
theorem shows_iff_toList {text part : String} : Shows text part ↔ part.toList <:+: text.toList := by
  constructor
  · rintro ⟨before, after, rfl⟩
    exact ⟨before.toList, after.toList, by simp⟩
  · rintro ⟨before, after, h⟩
    exact ⟨.ofList before, .ofList after, String.toList_inj.mp (by simpa using h.symm)⟩

/-- The text shows a link to some heading of its own page. -/
def ShowsPageLink (text : String) : Prop :=
  ∃ label target, Shows text ("[" ++ label ++ "](#" ++ target ++ ")")

/-- No name of the glossary closes a bracket. -/
theorem bracket_not_mem_glossary : ∀ entry ∈ Glossary.anchors, ']' ∉ entry.1.toList := by
  decide +kernel

/-- What starts with a character that the first part lacks is found behind it. -/
theorem infix_of_infix_append {c : Char} {part front rest : List Char} (hc : c ∉ front)
    (h : c :: part <:+: front ++ rest) : c :: part <:+: rest := by
  induction front with
  | nil => exact h
  | cons d front ih =>
    rcases List.infix_cons_iff.mp h with hstart | hlater
    · exact absurd (List.cons_prefix_cons.mp hstart).1 (List.ne_of_not_mem_cons hc)
    · exact ih (List.not_mem_of_not_mem_cons hc) hlater

/-- A link from a word without brackets leads into the page exactly if its address does: the address
starts with the sign of a heading, or holds a link of its own. -/
theorem showsPageLink_link_iff {word address : String} (hword : ']' ∉ word.toList) :
    ShowsPageLink ("[" ++ word ++ "](" ++ address ++ ")") ↔ Shows ("](" ++ address) "](#" := by
  constructor
  · rintro ⟨label, target, hlink⟩
    have hopening : Shows ("[" ++ label ++ "](#" ++ target ++ ")") "](#" :=
      ⟨"[" ++ label, target ++ ")", by simp only [String.append_assoc]⟩
    have hinfix := shows_iff_toList.mp (hlink.trans hopening)
    have hfront : ']' ∉ '[' :: word.toList :=
      List.not_mem_cons_of_ne_of_not_mem (by decide) hword
    have hbehind : ']' :: ['(', '#'] <:+: ("](" ++ address).toList ++ [')'] := by
      refine infix_of_infix_append hfront ?_
      simpa using hinfix
    rw [shows_iff_toList]
    rcases List.infix_concat_iff.mp hbehind with hend | hearlier
    · obtain ⟨before, hbefore⟩ := hend
      have hends : (before ++ [']', '(']) ++ ['#'] = ("](" ++ address).toList ++ [')'] := by
        rw [← hbefore, List.append_assoc]
        rfl
      cases (List.append_inj' hends rfl).2
    · exact hearlier
  · rintro ⟨before, after, h⟩
    refine ⟨word ++ before, after, "", "", ?_⟩
    have hlink : "[" ++ word ++ "](" ++ address ++ ")" =
        "[" ++ word ++ ("](" ++ address) ++ ")" := by
      simp only [String.append_assoc]
    rw [hlink, h]
    simp only [String.append_assoc, String.empty_append, String.append_empty]

namespace TypeExpr

/-- The word that stands for a single name where no record is meant. -/
def word? : TypeExpr → Option String
  | named name => some name
  | basic name => some (Glossary.rename name)
  | list _ _ => none
  | holder _ _ => none

/-- What a type without list wrappers is shown as, among records of the given names. -/
inductive ShownAs (settings : Settings) (locals : List String) (e : TypeExpr) : Reference → Prop
  /-- A record that is meant is linked within the page. -/
  | record {name : String} (h : e.Means locals name) :
    ShownAs settings locals e ⟨"[" ++ name ++ "](#" ++ Text.lower name ++ ")",
      some ("#" ++ Text.lower name), name⟩
  /-- Failing that, a word of the glossary is linked to its entry on the wiki. -/
  | entry {word anchor : String} (hnone : ∀ name, ¬e.Means locals name)
    (hword : e.word? = some word) (hanchor : Glossary.anchor? word = some anchor) :
    ShownAs settings locals e ⟨"[" ++ word ++ "](" ++ settings.commonTypeUrl anchor ++ ")",
      some (settings.commonTypeUrl anchor), word⟩
  /-- Any other word is shown as it is. -/
  | plain {word : String} (hnone : ∀ name, ¬e.Means locals name) (hword : e.word? = some word)
    (hanchor : Glossary.anchor? word = none) : ShownAs settings locals e ⟨word, none, word⟩
  /-- A holder is shown as it is spelled. -/
  | holder {inner raw : String} (h : e = .holder inner raw) :
    ShownAs settings locals e ⟨raw, none, settings.dataHolderStubType ++ "<" ++ inner ++ ">"⟩

/-- The type would be shown with a link within the page though no record is meant: it spells one, or
the address of its entry on the wiki leads back. -/
inductive SpellsPageLink (settings : Settings) (e : TypeExpr) : Prop
  /-- The word itself holds a link. -/
  | plain {word : String} (hword : e.word? = some word) (hanchor : Glossary.anchor? word = none)
    (h : ShowsPageLink word)
  /-- The address on the wiki is a heading of the page, or holds a link. -/
  | entry {word anchor : String} (hword : e.word? = some word)
    (hanchor : Glossary.anchor? word = some anchor)
    (h : Shows ("](" ++ settings.commonTypeUrl anchor) "](#")
  /-- The spelling of a holder holds a link. -/
  | holder {inner raw : String} (he : e = .holder inner raw) (h : ShowsPageLink raw)

section ShownAs

variable {settings : Settings} {locals : List String} {e : TypeExpr} {reference : Reference}

/-- The word of a single name is no spelling of a holder. -/
theorem ne_holder_of_word? {word inner raw : String} (hword : e.word? = some word) :
    e ≠ .holder inner raw := by
  rintro rfl
  cases hword

/-- A record that is meant is shown as the link to its heading. -/
theorem ShownAs.display_of_means (h : e.ShownAs settings locals reference) {name : String}
    (hmeans : e.Means locals name) :
    reference.display = "[" ++ name ++ "](#" ++ Text.lower name ++ ")" := by
  cases h with
  | record hother => rw [hmeans.unique hother]
  | entry hnone _ _ => exact absurd hmeans (hnone name)
  | plain hnone _ _ => exact absurd hmeans (hnone name)
  | holder he =>
    subst he
    cases hmeans

/-- A type is shown with a link within the page exactly if it means a record or spells a link. -/
theorem ShownAs.showsPageLink_iff (h : e.ShownAs settings locals reference) :
    ShowsPageLink reference.display ↔
      (∃ name, e.Means locals name) ∨ e.SpellsPageLink settings := by
  cases h with
  | record hmeans =>
    exact iff_of_true ⟨_, _, Shows.refl _⟩ (Or.inl ⟨_, hmeans⟩)
  | @entry word anchor hnone hword hanchor =>
    obtain ⟨before, after, hanchors, -⟩ := List.lookup_eq_some_iff.mp hanchor
    have hbracket : ']' ∉ word.toList :=
      bracket_not_mem_glossary (word, anchor) (by simp [hanchors])
    refine (showsPageLink_link_iff hbracket).trans ⟨fun hlink => ?_, ?_⟩
    · exact Or.inr (.entry hword hanchor hlink)
    · rintro (⟨name, hmeans⟩ | ⟨hword', hanchor', -⟩ | ⟨hword', hanchor', hlink⟩ | ⟨he, -⟩)
      · exact absurd hmeans (hnone name)
      · obtain rfl := Option.some.inj (hword.symm.trans hword')
        cases hanchor.symm.trans hanchor'
      · obtain rfl := Option.some.inj (hword.symm.trans hword')
        obtain rfl := Option.some.inj (hanchor.symm.trans hanchor')
        exact hlink
      · exact absurd he (ne_holder_of_word? hword)
  | plain hnone hword hanchor =>
    refine ⟨fun hlink => Or.inr (.plain hword hanchor hlink), ?_⟩
    rintro (⟨name, hmeans⟩ | ⟨hword', -, hlink⟩ | ⟨hword', hanchor', -⟩ | ⟨he, -⟩)
    · exact absurd hmeans (hnone name)
    · obtain rfl := Option.some.inj (hword.symm.trans hword')
      exact hlink
    · obtain rfl := Option.some.inj (hword.symm.trans hword')
      cases hanchor.symm.trans hanchor'
    · exact absurd he (ne_holder_of_word? hword)
  | holder he =>
    subst he
    refine ⟨fun hlink => Or.inr (.holder rfl hlink), ?_⟩
    rintro (⟨name, hmeans⟩ | ⟨hword', -, -⟩ | ⟨hword', -, -⟩ | ⟨he, hlink⟩)
    · cases hmeans
    · cases hword'
    · cases hword'
    · cases he
      exact hlink

end ShownAs

end TypeExpr

namespace Resolver

/-- The reference to a record shows its name as a link to its heading. -/
theorem localReference_eq (name : String) :
    localReference name = ⟨"[" ++ name ++ "](#" ++ Text.lower name ++ ")",
      some ("#" ++ Text.lower name), name⟩ := by
  have hopening : "](#" = "](" ++ "#" := rfl
  simp only [localReference, headingAnchor, List.map_cons, List.map_nil,
    String.intercalate_singleton, hopening, String.append_assoc]

/-- A word that means no record is shown by its entry in the glossary, or as it is. -/
theorem outerReference_shownAs (settings : Settings) {locals : List String} {e : TypeExpr}
    {word : String} (hnone : ∀ name, ¬e.Means locals name) (hword : e.word? = some word) :
    e.ShownAs settings locals (outerReference settings word) := by
  unfold outerReference
  split
  · next anchor hanchor => exact .entry hnone hword hanchor
  · next hanchor => exact .plain hnone hword hanchor

section Resolve

variable {r : Resolver} {name : String}

/-- A name of a record is resolved to the record. -/
theorem nameReference_of_mem (h : name ∈ r.locals) : r.nameReference name = localReference name :=
  if_pos (List.contains_iff_mem.mpr h)

/-- Another name is resolved outside of the page. -/
theorem nameReference_of_not_mem (h : name ∉ r.locals) :
    r.nameReference name = outerReference r.settings name :=
  if_neg (mt List.contains_iff_mem.mp h)

/-- A basic spelling that names a record is resolved to the record. -/
theorem resolve_basic_of_mem (h : name ∈ r.locals) :
    r.resolve (.basic name) = localReference name :=
  if_pos (List.contains_iff_mem.mpr h)

/-- Another basic spelling is resolved like its documented name. -/
theorem resolve_basic_of_not_mem (h : name ∉ r.locals) :
    r.resolve (.basic name) = r.nameReference (Glossary.rename name) :=
  if_neg (mt List.contains_iff_mem.mp h)

end Resolve

/-- Under all list wrappers, a type is resolved to what it is shown as. -/
theorem resolve_innermost_shownAs (r : Resolver) (e : TypeExpr) :
    e.innermost.ShownAs r.settings r.locals (r.resolve e.innermost) := by
  induction e with
  | list kind inner ih => exact ih
  | holder inner raw => exact .holder rfl
  | named name =>
    rw [TypeExpr.innermost, resolve]
    by_cases hname : name ∈ r.locals
    · rw [nameReference_of_mem hname, localReference_eq]
      exact .record (.named hname)
    · rw [nameReference_of_not_mem hname]
      refine outerReference_shownAs r.settings (fun other h => ?_) rfl
      cases h
      contradiction
  | basic name =>
    rw [TypeExpr.innermost]
    by_cases hname : name ∈ r.locals
    · rw [resolve_basic_of_mem hname, localReference_eq]
      exact .record (.basic hname)
    · rw [resolve_basic_of_not_mem hname]
      by_cases hrenamed : Glossary.rename name ∈ r.locals
      · rw [nameReference_of_mem hrenamed, localReference_eq]
        exact .record (.renamed hname hrenamed)
      · rw [nameReference_of_not_mem hrenamed]
        refine outerReference_shownAs r.settings (fun other h => ?_) rfl
        cases h <;> contradiction

/-- List wrappers go around what the type under them is resolved to. -/
theorem resolve_eq_repeat (r : Resolver) (e : TypeExpr) :
    r.resolve e = Nat.repeat (listReference r.settings) e.depth (r.resolve e.innermost) := by
  induction e with
  | list kind inner ih => exact congrArg (listReference r.settings) ih
  | basic name => rfl
  | holder inner raw => rfl
  | named name => rfl

/-- Names are resolved alike where they are looked up with the same outcome. -/
theorem nameReference_congr {settings : Settings} {locals locals' : List String} {name : String}
    (h : name ∈ locals ↔ name ∈ locals') :
    nameReference ⟨locals, settings⟩ name = nameReference ⟨locals', settings⟩ name := by
  by_cases hname : name ∈ locals
  · rw [nameReference_of_mem hname, nameReference_of_mem (h.mp hname)]
  · rw [nameReference_of_not_mem hname, nameReference_of_not_mem (mt h.mpr hname)]

/-- Only the names that a type looks up matter to it. -/
theorem resolve_congr {settings : Settings} {locals locals' : List String} {e : TypeExpr}
    (h : ∀ name ∈ e.lookedUp, name ∈ locals ↔ name ∈ locals') :
    resolve ⟨locals, settings⟩ e = resolve ⟨locals', settings⟩ e := by
  induction e with
  | list kind inner ih => exact congrArg (listReference settings) (ih h)
  | holder inner raw => rfl
  | named name => exact nameReference_congr (h name List.mem_cons_self)
  | basic name =>
    have hname := h name List.mem_cons_self
    have hrenamed := h (Glossary.rename name) (List.mem_cons_of_mem _ List.mem_cons_self)
    by_cases hmem : name ∈ locals
    · rw [resolve_basic_of_mem hmem, resolve_basic_of_mem (hname.mp hmem)]
    · rw [resolve_basic_of_not_mem hmem, resolve_basic_of_not_mem (mt hname.mpr hmem)]
      exact nameReference_congr hrenamed

end Resolver

/-! ## Where a type appears -/

/-- A place of a document where a type appears. -/
structure Appearance where
  /-- The spelling of the type. -/
  type : Value
  /-- What stands there, for the reference to the type. -/
  text : Reference → String

/-- The row of a parameter. -/
def Parameter.rowAppearance (q : Parameter) : Appearance :=
  ⟨q.type, fun type => Builder.rowText [type.cell, q.name.plain, ""]⟩

/-- The field of a request parameter. -/
def Parameter.inputAppearance (q : Parameter) : Appearance :=
  ⟨q.type, fun type => StubField.line ⟨Text.lower q.name.plain, type.stub⟩⟩

/-- The field of a response parameter, which may be that of a return value. -/
def Parameter.outputAppearance (settings : Settings) (q : Parameter) : Appearance :=
  ⟨q.type, fun type =>
    let name := Text.lower q.name.plain
    let isReturn := q.isReturn || name = Text.lower settings.returnValueMarker
    StubField.line ⟨if isReturn then Method.returnField else name, type.stub⟩⟩

/-- The rows and the fields of the parameters of a method. -/
def Method.appearances (settings : Settings) (m : Method) : List Appearance :=
  (m.request ++ m.response).map Parameter.rowAppearance ++
    (m.request.map Parameter.inputAppearance ++
      m.response.map (Parameter.outputAppearance settings))

/-- The row of a member, and its field unless it is padding. -/
def Member.appearances (m : Member) : List Appearance :=
  ⟨m.type, fun type => Builder.rowText [m.name.plain, type.cell]⟩ ::
    if Record.isPadding m.name.plain then []
    else [⟨m.type, fun type => StubField.line ⟨m.name.plain, type.stub⟩⟩]

/-- The heading of a record, which names its parent, and its members. -/
def Record.appearances (settings : Settings) (r : Record) : List Appearance :=
  ⟨r.parentSpelling settings, r.headingText⟩ :: r.members.flatMap Member.appearances

/-- All places of a document where a type appears. -/
def Protocol.appearances (settings : Settings) (p : Protocol) : List Appearance :=
  p.methods.flatMap (·.appearances settings) ++ p.records.flatMap (·.appearances settings)

/-- The text shows, at the place, the reference that the resolver gives for the type. -/
def Appearance.ShownIn (text : String) (resolver : Resolver) (a : Appearance) : Prop :=
  ∃ raw, a.type = .text raw ∧ Shows text (a.text (resolver.resolveSpelling raw))

section ShownIn

variable {text : String} {resolver : Resolver}

/-- Only texts can be resolved. -/
theorem Resolver.resolveValue_cases {v : Value} {reference : Reference}
    (h : resolver.resolveValue v = .ok reference) :
    ∃ raw, v = .text raw ∧ reference = resolver.resolveSpelling raw := by
  cases v with
  | text raw => exact ⟨raw, rfl, (Except.ok.inj h).symm⟩
  | _ => cases h

/-- Only texts can be lower-cased. -/
theorem lowerName_cases {v : Value} {name : String} (h : lowerName v = .ok name) :
    name = Text.lower v.plain := by
  cases v with
  | text s => exact (Except.ok.inj h).symm
  | _ => cases h

/-- The row that is made for a parameter shows its type. -/
theorem Parameter.shownIn_row {q : Parameter} {row : List String}
    (h : Method.parameterRow resolver q = .ok row) (hrow : Shows text (Builder.rowText row)) :
    q.rowAppearance.ShownIn text resolver := by
  obtain ⟨type, htype, hrow'⟩ := bind_eq_ok_iff.mp h
  obtain ⟨raw, hraw, rfl⟩ := Resolver.resolveValue_cases htype
  obtain rfl := Except.ok.inj hrow'
  exact ⟨raw, hraw, hrow⟩

/-- A field is made of the lower-cased name, which may be replaced, and the type. -/
theorem Parameter.field_cases (replace : String → String) {q : Parameter} {field : StubField}
    (h : (do
      let name ← lowerName q.name
      let type ← resolver.resolveValue q.type
      return StubField.mk (replace name) type.stub) = .ok field) :
    ∃ raw, q.type = .text raw ∧
      field = ⟨replace (Text.lower q.name.plain), (resolver.resolveSpelling raw).stub⟩ := by
  obtain ⟨name, hname, h⟩ := bind_eq_ok_iff.mp h
  obtain ⟨type, htype, h⟩ := bind_eq_ok_iff.mp h
  obtain rfl := lowerName_cases hname
  obtain ⟨raw, hraw, rfl⟩ := Resolver.resolveValue_cases htype
  exact ⟨raw, hraw, (Except.ok.inj h).symm⟩

/-- The field that is made for a request parameter shows its type. -/
theorem Parameter.shownIn_input {q : Parameter} {field : StubField}
    (h : Method.inputField resolver q = .ok field) (hfield : Shows text field.line) :
    q.inputAppearance.ShownIn text resolver := by
  obtain ⟨raw, hraw, rfl⟩ := field_cases id h
  exact ⟨raw, hraw, hfield⟩

/-- The field that is made for a response parameter shows its type. -/
theorem Parameter.shownIn_output {q : Parameter} {field : StubField}
    (h : Method.outputField resolver.settings resolver q = .ok field)
    (hfield : Shows text field.line) :
    (q.outputAppearance resolver.settings).ShownIn text resolver := by
  obtain ⟨raw, hraw, rfl⟩ := field_cases (fun name =>
    if q.isReturn || name = Text.lower resolver.settings.returnValueMarker then Method.returnField
    else name) h
  exact ⟨raw, hraw, hfield⟩

/-- A member is shown with the text of its name. -/
theorem Record.resolveMember_cases {m : Member} {name : String} {type : Reference}
    (h : Record.resolveMember resolver m = .ok (name, type)) :
    name = m.name.plain ∧ ∃ raw, m.type = .text raw ∧ type = resolver.resolveSpelling raw := by
  obtain ⟨type', htype, h⟩ := bind_eq_ok_iff.mp h
  cases hname : m.name with
  | text s =>
    rw [hname] at h
    cases h
    exact ⟨rfl, Resolver.resolveValue_cases htype⟩
  | _ => rw [hname] at h; cases h

/-- The row and the field that are made for a member show its type. -/
theorem Member.shownIn {m : Member} {name : String} {type : Reference}
    (h : Record.resolveMember resolver m = .ok (name, type))
    (hrow : Shows text (Builder.rowText [name, type.cell]))
    (hfield : Record.isPadding name = false → Shows text (StubField.mk name type.stub).line) :
    ∀ a ∈ m.appearances, a.ShownIn text resolver := by
  obtain ⟨rfl, raw, hraw, rfl⟩ := Record.resolveMember_cases h
  intro a ha
  rcases List.mem_cons.mp ha with rfl | hother
  · exact ⟨raw, hraw, hrow⟩
  · split at hother
    · cases hother
    · next hpadding =>
      obtain rfl := List.mem_singleton.mp hother
      exact ⟨raw, hraw, hfield (Bool.eq_false_iff.mpr hpadding)⟩

/-- The resolver of a section has the settings of the document and the names of its records. -/
theorem Resolver.ofRecords_cases {active settings : Settings} {records : List Record}
    (h : Resolver.ofRecords active (some settings) records = .ok resolver) :
    resolver = ⟨records.filterMap (·.name.text?), settings⟩ := by
  obtain ⟨names, hnames, h⟩ := bind_eq_ok_iff.mp h
  unfold localNames at hnames
  split at hnames
  · cases hnames
    exact (Except.ok.inj h).symm
  · cases hnames

variable {active settings : Settings} {records : List Record} {fragment : Fragment}

/-- A method section shows the type of every parameter. -/
theorem Method.shownIn {m : Method} {index : Int}
    (h : m.render active (some settings) index records = .ok fragment) :
    ∀ a ∈ m.appearances settings,
      a.ShownIn fragment.doc ⟨records.filterMap (·.name.text?), settings⟩ := by
  obtain ⟨resolver, hresolver, hrows, hinputs, houtputs⟩ := shows_parameters h
  obtain rfl := Resolver.ofRecords_cases hresolver
  refine List.forall_mem_append.mpr ⟨?_, List.forall_mem_append.mpr ⟨?_, ?_⟩⟩
  · refine List.forall_mem_map.mpr fun q hq => ?_
    obtain ⟨row, hrow, hshown⟩ := hrows q hq
    exact Parameter.shownIn_row hrow hshown
  · refine List.forall_mem_map.mpr fun q hq => ?_
    obtain ⟨field, hfield, hshown⟩ := hinputs q hq
    exact Parameter.shownIn_input hfield hshown
  · refine List.forall_mem_map.mpr fun q hq => ?_
    obtain ⟨field, hfield, hshown⟩ := houtputs q hq
    exact Parameter.shownIn_output hfield hshown

/-- A record section shows the type of its parent and of every member. -/
theorem Record.shownIn {r : Record} (h : r.render active (some settings) records = .ok fragment) :
    ∀ a ∈ r.appearances settings,
      a.ShownIn fragment.doc ⟨records.filterMap (·.name.text?), settings⟩ := by
  obtain ⟨resolver, parent, hresolver, hparent, ⟨rest, hheading⟩, hmembers⟩ := shows_members h
  obtain rfl := Resolver.ofRecords_cases hresolver
  refine List.forall_mem_cons.mpr ⟨?_, fun a ha => ?_⟩
  · obtain ⟨raw, hraw, rfl⟩ := Resolver.resolveValue_cases hparent
    refine ⟨raw, hraw, ?_⟩
    rw [hheading]
    exact (Shows.refl _).append_right rest
  · obtain ⟨m, hm, ha⟩ := List.mem_flatMap.mp ha
    obtain ⟨name, type, hmember, hrow, hfield⟩ := hmembers m hm
    exact Member.shownIn hmember hrow hfield a ha

/-- What a section shows is shown by the document. -/
theorem Appearance.ShownIn.trans {part : String} {a : Appearance} (h : a.ShownIn part resolver)
    (hpart : Shows text part) : a.ShownIn text resolver := by
  obtain ⟨raw, hraw, hshown⟩ := h
  exact ⟨raw, hraw, hpart.trans hshown⟩

end ShownIn

namespace Protocol

variable {active settings : Settings} {p : Protocol} {text : String}

/-- The names that are looked up are those of the records. -/
theorem mem_recordNames {name : String} :
    name ∈ p.recordNames ↔ ∃ r ∈ p.records, r.name = .text name := by
  have htext : ∀ v : Value, v.text? = some name ↔ v = .text name := by
    intro v
    cases v <;> simp [Value.text?]
  simp only [recordNames, List.mem_eraseDups, List.mem_filterMap, htext]

/-- What types are looked up in within the document of a protocol. -/
def resolver (settings : Settings) (p : Protocol) : Resolver :=
  ⟨p.recordNames, settings⟩

/-- A document shows every type of a protocol as it is resolved among its records. -/
theorem shownIn (h : p.render active (some settings) = .ok text) :
    ∀ a ∈ p.appearances settings, a.ShownIn text (p.resolver settings) := by
  intro a ha
  suffices hshown : a.ShownIn text ⟨p.records.filterMap (·.name.text?), settings⟩ by
    obtain ⟨raw, hraw, hshown⟩ := hshown
    refine ⟨raw, hraw, ?_⟩
    have hsame : (p.resolver settings).resolve (TypeExpr.read raw) =
        Resolver.resolve ⟨p.records.filterMap (·.name.text?), settings⟩ (TypeExpr.read raw) :=
      Resolver.resolve_congr fun name _ => List.mem_eraseDups
    rwa [Resolver.resolveSpelling, hsame]
  rcases List.mem_append.mp ha with hmethod | hrecord
  · obtain ⟨m, hm, ha⟩ := List.mem_flatMap.mp hmethod
    obtain ⟨index, fragment, hfragment, hpart⟩ := shows_method h hm
    exact (Method.shownIn hfragment a ha).trans hpart
  · obtain ⟨r, hr, ha⟩ := List.mem_flatMap.mp hrecord
    obtain ⟨fragment, hfragment, hpart⟩ := shows_record h hr
    exact (Record.shownIn hfragment a ha).trans hpart

/-- The document has a section about the record of that name, under the heading of the types. -/
def Documents (active settings : Settings) (p : Protocol) (text name : String) : Prop :=
  ∃ methods sections, p.methodSections active settings = .ok methods ∧
    text = String.intercalate "\n\n" ([p.header settings, methodIndex p.methods] ++ methods ++
      typesHeading :: sections) ∧
    ∃ rest, "## " ++ name ++ " (" ++ rest ∈ sections

/-- Every record is documented. -/
theorem documents_of_mem (h : p.render active (some settings) = .ok text) {name : String}
    (hname : name ∈ p.recordNames) : p.Documents active settings text name := by
  obtain ⟨r, hr, hname⟩ := mem_recordNames.mp hname
  obtain ⟨methods, records, hmethods, hrecords, htext⟩ := render_cases h
  obtain ⟨sections, fragment, rfl, hfragment, hdoc⟩ := recordSections_cases hrecords hr
  obtain ⟨resolver, parent, -, -, ⟨rest, hheading⟩, -⟩ := Record.shows_members hfragment
  refine ⟨methods, sections, hmethods, htext, parent.display ++ ")" ++ rest, ?_⟩
  have hdoc' : fragment.doc = "## " ++ name ++ " (" ++ (parent.display ++ ")" ++ rest) := by
    rw [hheading, Record.headingText, hname]
    simp only [Value.plain, String.append_assoc]
  rwa [← hdoc']

end Protocol

/-! ## Records of a document -/

/-- A walk gives a protocol the records behind the protocol before it. Here `before` is what the
walk has passed, and the records at its end are those that wait. -/
theorem exists_cut_of_mem_walk {settings : Settings} {before rest : Schema} {counter : Int}
    {found : List Protocol} {p : Protocol}
    (h : p ∈ ((Cursor.mk settings rest before.trailing).walk collect counter found).state) :
    p ∈ found ∨ ∃ middle q after, rest = middle ++ .protocol q :: after ∧
      p.records = Schema.trailing (before ++ middle) := by
  induction rest generalizing before counter found with
  | nil =>
    rw [Cursor.walk_nil] at h
    exact Or.inl h
  | cons d rest ih =>
    cases d with
    | record r =>
      rw [Cursor.walk_record, ← Schema.trailing_concat_record] at h
      rcases ih h with hfound | ⟨middle, q, after, rfl, hrecords⟩
      · exact Or.inl hfound
      · refine Or.inr ⟨.record r :: middle, q, after, rfl, ?_⟩
        rwa [List.append_assoc] at hrecords
    | protocol q =>
      cases hmethods : toMethods (protocolName settings counter q.name) q.methods with
      | error e =>
        rw [Cursor.walk_protocol_of_error hmethods] at h
        exact Or.inl h
      | ok methods =>
        rw [Cursor.walk_protocol_of_ok hmethods rfl,
          ← Schema.trailing_concat_protocol before q] at h
        rcases ih h with hfound | ⟨middle, q', after, rfl, hrecords⟩
        · rcases List.mem_append.mp hfound with hfound | hlast
          · exact Or.inl hfound
          · obtain rfl := List.mem_singleton.mp hlast
            exact Or.inr ⟨[], q, rest, rfl, by rw [List.append_nil]⟩
        · refine Or.inr ⟨.protocol q :: middle, q', after, rfl, ?_⟩
          rwa [List.append_assoc] at hrecords

/-- The records of an extracted protocol are those declared since the protocol before. -/
theorem exists_cut_of_mem_extract {active settings : Settings} {counter : Int} {schema : Schema}
    {p : Protocol} (h : p ∈ (extract active (some settings) counter schema).state) :
    ∃ before q after, schema = before ++ .protocol q :: after ∧
      p.records = Schema.trailing before := by
  have hwalk : p ∈ ((Cursor.mk settings schema (Schema.trailing [])).walk collect counter
    []).state := h
  rcases exists_cut_of_mem_walk hwalk with hnone | hcut
  · cases hnone
  · exact hcut

/-- How a document treats a type at one of its places. -/
structure CrossReferenced (active settings : Settings) (p : Protocol) (text : String)
    (a : Appearance) (e : TypeExpr) : Prop where
  /-- The place shows the list wrappers around what the type under them is resolved to. -/
  shown : Shows text (a.text (Nat.repeat (Resolver.listReference settings) e.depth
    ((p.resolver settings).resolve e.innermost)))
  /-- That is the link to the record which is meant, the link to an entry of the wiki, or the text
  of the type as it is. -/
  shownAs : e.innermost.ShownAs settings p.recordNames ((p.resolver settings).resolve e.innermost)
  /-- So it holds a link within the page exactly if a record is meant, or the type spells one. -/
  showsPageLink_iff : ShowsPageLink ((p.resolver settings).resolve e.innermost).display ↔
    (∃ name, e.innermost.Means p.recordNames name) ∨ e.innermost.SpellsPageLink settings
  /-- A record that is meant has its section in the same document. -/
  documented : ∀ name, e.innermost.Means p.recordNames name →
    p.Documents active settings text name
  /-- Records of other names make no difference; to a holder, no record does. -/
  unaffected : ∀ locals, (∀ name ∈ e.lookedUp, name ∈ locals ↔ name ∈ p.recordNames) →
    Resolver.resolve ⟨locals, settings⟩ e = (p.resolver settings).resolve e

/-- **Cross references are sound, complete and local to the document.** In the document of an
extracted protocol, every type of a parameter, a member or a parent is linked within the page if,
under all list wrappers, it means a record that was declared since the protocol before. Such a
record has its section in the same document, and records of other names make no difference. Any
other type is shown as a link to the wiki or as it is written; so there is a link within the page
only if the type spells one itself, or the address of the wiki does. -/
theorem references_link_own_records (active settings : Settings) (counter : Int) (schema : Schema)
    (p : Protocol) (hp : p ∈ (extract active (some settings) counter schema).state) (text : String)
    (htext : p.render active (some settings) = .ok text) :
    (∃ before q after, schema = before ++ .protocol q :: after ∧ ∀ name,
      name ∈ p.recordNames ↔ ∃ r ∈ Schema.trailing before, r.name = .text name) ∧
    ∀ a ∈ p.appearances settings, ∃ raw, a.type = .text raw ∧
      CrossReferenced active settings p text a (TypeExpr.read raw) := by
  constructor
  · obtain ⟨before, q, after, hschema, hrecords⟩ := exists_cut_of_mem_extract hp
    refine ⟨before, q, after, hschema, fun name => ?_⟩
    rw [Protocol.mem_recordNames, hrecords]
  · intro a ha
    obtain ⟨raw, hraw, hshown⟩ := Protocol.shownIn htext a ha
    have hshownAs := (p.resolver settings).resolve_innermost_shownAs (TypeExpr.read raw)
    refine ⟨raw, hraw, ?_, hshownAs, hshownAs.showsPageLink_iff, ?_, ?_⟩
    · rwa [Resolver.resolveSpelling, Resolver.resolve_eq_repeat] at hshown
    · exact fun name hmeans => Protocol.documents_of_mem htext hmeans.mem
    · exact fun locals hlocals => Resolver.resolve_congr hlocals

/-- Two protocols. The records of the second one include one with a documented name of the glossary,
and a member whose type is a record of the first. -/
def linkedSchema : Schema :=
  [.record ⟨.text "Key", .text "", []⟩,
    .protocol ⟨.text "Auth", []⟩,
    .record ⟨.text "Gathering", .text "", [⟨.text "owner", .text "Key"⟩]⟩,
    .record ⟨.text "NexString", .text "Gathering", [⟨.text "words", .text "string"⟩]⟩,
    .protocol ⟨.text "Matchmake", [⟨.text "Find",
      [⟨.text "found", .text "qlist<Gathering>", .integer 2, false⟩]⟩]⟩]

/-- The second protocol. -/
def linkedProtocol : Protocol :=
  ⟨.text "Matchmake", "Unknown ID",
    [⟨.text "Find", [], [⟨.text "found", .text "qlist<Gathering>", .integer 2, false⟩]⟩],
    [⟨.text "Gathering", .text "", [⟨.text "owner", .text "Key"⟩]⟩,
      ⟨.text "NexString", .text "Gathering", [⟨.text "words", .text "string"⟩]⟩]⟩

/-- Settings with a short address. -/
def shortSettings : Settings := { wikiBase := "wiki" }

/-- In the document of the second protocol, lists and documented names lead to its own records, and
the record of the first protocol is a mere word. -/
theorem linkedProtocol_references :
    linkedProtocol ∈ (extract {} (some shortSettings) 0 linkedSchema).state ∧
    ∃ text, linkedProtocol.render {} (some shortSettings) = .ok text ∧
      Shows text
        "| [List](wiki/NEX-Common-Types#list)&#x3C;[Gathering](#gathering)&#x3E; | found |  |" ∧
      Shows text "| owner | Key |" ∧
      Shows text "| words | [NexString](#nexstring) |" ∧
      linkedProtocol.Documents {} shortSettings text "NexString" := by
  have hp : linkedProtocol ∈ (extract {} (some shortSettings) 0 linkedSchema).state := by
    simp only [extract, Cursor.start, linkedSchema, Cursor.walk_record]
    rw [Cursor.walk_protocol_of_ok rfl rfl, Cursor.walk_record, Cursor.walk_record,
      Cursor.walk_protocol_of_ok rfl rfl, Walk.after, Walk.after, Cursor.walk_nil]
    exact List.mem_of_mem_getLast? rfl
  have htextual : linkedProtocol.Textual := by
    refine ⟨⟨_, rfl⟩, List.forall_mem_singleton.mpr ⟨List.forall_mem_nil _, ?_⟩,
      List.forall_mem_cons.mpr ⟨⟨⟨_, rfl⟩, Or.inr ⟨_, rfl⟩, ?_⟩,
        List.forall_mem_singleton.mpr ⟨⟨_, rfl⟩, Or.inr ⟨_, rfl⟩, ?_⟩⟩⟩
    all_goals exact List.forall_mem_singleton.mpr ⟨⟨_, rfl⟩, ⟨_, rfl⟩⟩
  obtain ⟨text, htext⟩ := htextual.exists_render {} shortSettings
  obtain ⟨-, hplaces⟩ :=
    references_link_own_records {} shortSettings 0 linkedSchema linkedProtocol hp text htext
  have hat : ∀ (i : Nat) a raw, (linkedProtocol.appearances shortSettings)[i]? = some a →
      a.type = .text raw → CrossReferenced {} shortSettings linkedProtocol text a (.read raw) := by
    intro i a raw hi htype
    obtain ⟨raw', htype', hplace⟩ := hplaces a (List.mem_of_getElem? hi)
    obtain rfl := Value.text.inj (htype.symm.trans htype')
    exact hplace
  -- The places go by section, and in each of them rows and fields.
  have hfound := hat 0 _ "qlist<Gathering>" rfl rfl
  have howner := hat 3 _ "Key" rfl rfl
  have hwords := hat 6 _ "string" rfl rfl
  have hmeans : (TypeExpr.read "string").innermost.Means linkedProtocol.recordNames
      (Glossary.rename "string") := by
    have hread : (TypeExpr.read "string").innermost = .basic "string" := by decide +kernel
    rw [hread]
    exact .renamed (by decide +kernel) (by decide +kernel)
  refine ⟨hp, text, htext, ?_, ?_, ?_, hwords.documented _ hmeans⟩
  · convert hfound.shown using 1
    decide +kernel
  · convert howner.shown using 1
    decide +kernel
  · convert hwords.shown using 1
    decide +kernel

/-- A parameter whose type spells a link. -/
def ghostParameter : Parameter :=
  ⟨.text "seen", .text "[Ghost](#ghost)", .integer 1, false⟩

/-- A protocol without records, and with that parameter. -/
def ghostProtocol : Protocol :=
  ⟨.text "Sight", "Unknown ID", [⟨.text "Report", [ghostParameter], []⟩], []⟩

/-- A type that spells a link is shown as one, to a heading that the page does not have. -/
theorem ghostProtocol_links :
    ghostProtocol ∈ (extract {} (some {}) 0
      [.protocol ⟨.text "Sight", [⟨.text "Report", [ghostParameter]⟩]⟩]).state ∧
    (∀ name, ¬(TypeExpr.read "[Ghost](#ghost)").Means ghostProtocol.recordNames name) ∧
    ShowsPageLink ((ghostProtocol.resolver {}).resolveSpelling "[Ghost](#ghost)").display ∧
    ∃ text, ghostProtocol.render {} (some {}) = .ok text ∧
      Shows text "| [Ghost](#ghost) | seen |  |" := by
  have hp : ghostProtocol ∈ (extract {} (some {}) 0
      [.protocol ⟨.text "Sight", [⟨.text "Report", [ghostParameter]⟩]⟩]).state := by
    simp only [extract, Cursor.start]
    rw [Cursor.walk_protocol_of_ok rfl rfl, Walk.after, Cursor.walk_nil]
    exact List.mem_of_mem_getLast? rfl
  have hdisplay : ((ghostProtocol.resolver {}).resolveSpelling "[Ghost](#ghost)").display =
      "[" ++ "Ghost" ++ "](#" ++ "ghost" ++ ")" := by
    decide +kernel
  have htextual : ghostProtocol.Textual :=
    ⟨⟨_, rfl⟩, List.forall_mem_singleton.mpr
      ⟨List.forall_mem_singleton.mpr ⟨⟨_, rfl⟩, ⟨_, rfl⟩⟩, List.forall_mem_nil _⟩,
      List.forall_mem_nil _⟩
  obtain ⟨text, htext⟩ := htextual.exists_render {} {}
  obtain ⟨raw, hraw, hshown⟩ :=
    Protocol.shownIn htext ghostParameter.rowAppearance List.mem_cons_self
  obtain rfl : "[Ghost](#ghost)" = raw := Value.text.inj hraw
  refine ⟨hp, fun name h => ?_, ?_, text, htext, ?_⟩
  · exact absurd h.mem (List.not_mem_nil)
  · rw [hdisplay]
    exact ⟨"Ghost", "ghost", Shows.refl _⟩
  · convert hshown using 1
    decide +kernel

end ProtocolPages
