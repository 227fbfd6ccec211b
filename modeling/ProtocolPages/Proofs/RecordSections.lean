import Mathlib.Data.List.Infix
import ProtocolPages.Proofs.LineStructure

/-!
# Record sections

A record section has a row for every member, and a field for every member that is more than
padding; the row and the field of a member come from one look at its type. The first field may
belong to the parent. Whether it does is decided by the name that stubs use for the parent, while
the heading shows the parent as it was looked up. For a parent that is a single name the two agree:
the field is there exactly if the name means a record of the page, and the heading links that
record. What the heading shows otherwise is not checked, so a parent that spells a link is shown as
one, without a field.
-/

namespace ProtocolPages

/-! ## Padding -/

namespace Record

/-- A word occurs in a text if it is one of its infixes. -/
theorem occursIn_iff {word text : List Char} : occursIn word text = true ↔ word <:+: text := by
  induction text with
  | nil => simp [occursIn]
  | cons c rest ih =>
    rw [occursIn, Bool.or_eq_true, ih, List.isPrefixOf_iff_prefix, List.infix_cons_iff]

/-- The fields of the members whose names do not contain `dummy`. -/
def substantialFields (r : Resolver) (record : Record) : List StubField :=
  (record.members.filter fun m => ¬"dummy".toList <:+: m.name.plain.toList).map fun m =>
    ⟨m.name.plain, (r.resolveSpelling m.type.plain).stub⟩

/-- Every member but padding has its field. -/
theorem memberFields_shown (r : Resolver) (record : Record) :
    memberFields (record.members.map (·.shown r)) = record.substantialFields r := by
  have hpadding (m : Member) :
      isPadding m.name.plain = decide ("dummy".toList <:+: m.name.plain.toList) := by
    rw [Bool.eq_iff_iff, decide_eq_true_iff]
    exact occursIn_iff
  have hkept : ∀ m ∈ record.members, (!isPadding (m.shown r).1) =
      decide (¬"dummy".toList <:+: m.name.plain.toList) := by
    intro m _
    rw [decide_not, ← hpadding]
    rfl
  rw [memberFields, List.filter_map, List.map_map, substantialFields, ← List.filter_congr hkept]
  rfl

end Record

/-! ## Parents that are single names -/

namespace TypeExpr

variable {locals : List String} {e : TypeExpr}

/-- The word of a single name that means no record is the name of none. -/
theorem word_not_mem_of_not_means {word : String} (hword : e.word? = some word)
    (hnone : ∀ name, ¬e.Means locals name) : word ∉ locals := by
  intro hmem
  cases e with
  | named name =>
    obtain rfl := Option.some.inj hword
    exact hnone _ (.named hmem)
  | basic name =>
    obtain rfl := Option.some.inj hword
    by_cases hname : name ∈ locals
    · exact hnone _ (.basic hname)
    · exact hnone _ (.renamed hname hmem)
  | list kind inner => cases hword
  | holder inner raw => cases hword

/-- A single name has no list wrappers. -/
theorem innermost_of_single (h : ∃ name, e = .named name ∨ e = .basic name) :
    e.innermost = e := by
  rcases h with ⟨name, rfl | rfl⟩ <;> rfl

end TypeExpr

/-! ## The section -/

namespace Record

/-- The stub of a record, with a field for the parent if there is one. -/
def stubWith (active : Settings) (r : Resolver) (record : Record)
    (parentField : Option StubField) : String :=
  renderStub active (some r.settings) record.name.plain
    (parentField.toList ++ record.substantialFields r)

/-- What the section of a record consists of: the heading with the parent, a row for each member
with its name and its type, and the stub. -/
structure DocumentedBy (active : Settings) (r : Resolver) (record : Record) (parent : Reference)
    (parentField : Option StubField) (fragment : Fragment) : Prop where
  doc : fragment.doc = "\n".intercalate
    (("## " ++ record.name.plain ++ " (" ++ parent.display ++ ")") ::
      "| Name | Type |" :: "| --- | --- |" ::
      (record.members.map (fun m => "| " ++ m.name.plain ++ " | " ++
        Text.encodeEntities (r.resolveSpelling m.type.plain).display ++ " |") ++
      [record.stubWith active r parentField]))
  stubs : fragment.stubs = [record.stubWith active r parentField]

/-- A record that declares no parent is shown with the root record type as its parent. -/
theorem parentShown_eq (r : Resolver) (record : Record) :
    record.parentShown r = r.resolveSpelling
      (if record.parent.isVacant then r.settings.rootRecordType else record.parent.plain) := by
  unfold parentShown parentSpelling
  split <;> rfl

/-- There is at most one field for the parent. -/
theorem toList_head?_parentField (r : Resolver) (parent : Reference) :
    (parentField r parent).head?.toList = parentField r parent := by
  unfold parentField
  split <;> rfl

/-- A section has a row for each member, and the fields that the parent and the members have. -/
theorem documentedBy {active settings : Settings} {record : Record} {records : List Record}
    {fragment : Fragment} (h : record.render active (some settings) records = .ok fragment) :
    let r : Resolver := ⟨records.filterMap (·.name.text?), settings⟩
    record.DocumentedBy active r (record.parentShown r) (parentField r (record.parentShown r)).head?
      fragment := by
  intro r
  obtain ⟨hdoc, hstubs⟩ := fragment_eq h
  rw [memberFields_shown, ← toList_head?_parentField] at hstubs
  refine ⟨?_, hstubs⟩
  have hstub : linesText [record.stubWith active r (parentField r (record.parentShown r)).head?] =
      linesText (stubLines settings record.name.plain
        (parentField r (record.parentShown r) ++ record.substantialFields r)) := by
    rw [stubWith, toList_head?_parentField, linesText_renderStub, List.append_nil]
  rw [hdoc, lines, memberFields_shown, intercalate_cons, intercalate_cons, linesText_cons,
    linesText_cons, linesText_cons, linesText_cons, linesText_append, linesText_append, hstub]
  rfl

/-- A parent that is a single name has a field exactly if it means a record, and then the field of
that record. -/
theorem head?_parentField_iff {r : Resolver} {e : TypeExpr}
    (h : ∃ name, e = .named name ∨ e = .basic name) (field : StubField) :
    (parentField r (r.resolve e)).head? = some field ↔
      ∃ name, e.Means r.locals name ∧ field = ⟨Text.lower name, name⟩ := by
  have hshown := r.resolve_innermost_shownAs e
  rw [TypeExpr.innermost_of_single h] at hshown
  have hword {word : String} (hword : e.word? = some word)
      (hnone : ∀ name, ¬e.Means r.locals name) (display : String) (link : Option String) :
      (parentField r ⟨display, link, word⟩).head? = some field ↔
        ∃ name, e.Means r.locals name ∧ field = ⟨Text.lower name, name⟩ := by
    have hnot := TypeExpr.word_not_mem_of_not_means hword hnone
    simp [parentField, hnot, hnone]
  generalize r.resolve e = reference at hshown
  cases hshown with
  | @record name hmeans =>
    simp only [parentField, List.contains_iff_mem, hmeans.mem, if_true, List.head?_cons,
      Option.some.injEq]
    constructor
    · rintro rfl
      exact ⟨name, hmeans, rfl⟩
    · rintro ⟨other, hother, rfl⟩
      rw [hmeans.unique hother]
  | entry hnone hentry _ => exact hword hentry hnone _ _
  | plain hnone hplain _ => exact hword hplain hnone _ _
  | holder he =>
    rcases h with ⟨name, rfl | rfl⟩ <;> cases he

end Record

/-- **A record section shows every member, and stubs every member but padding.** The rows and the
fields stand in the order of the record, and show one resolved type for each member. In front of
these fields there may be one for the parent. If the parent is a single name, the field is there
exactly if the name means a record, be it only by its documented name; it is the field of that
record, and the heading links the record within the page. The heading has no other link within the
page than one that the parent spells itself, or the address of the wiki. -/
theorem record_section_documents_members (active settings : Settings) (record : Record)
    (records : List Record) (hrecord : record.Textual)
    (hrecords : ∀ other ∈ records, other.name.IsText) :
    let r : Resolver := ⟨records.filterMap (·.name.text?), settings⟩
    let token := if record.parent.isVacant then settings.rootRecordType else record.parent.plain
    let parent := r.resolveSpelling token
    ∃ fragment parentField, record.render active (some settings) records = .ok fragment ∧
      record.DocumentedBy active r parent parentField fragment ∧
      ((∃ name, TypeExpr.read token = .named name ∨ TypeExpr.read token = .basic name) →
        (∀ field, parentField = some field ↔
          ∃ name, (TypeExpr.read token).Means r.locals name ∧ field = ⟨Text.lower name, name⟩) ∧
        (∀ field, parentField = some field →
          parent.display = "[" ++ field.type ++ "](#" ++ field.name ++ ")") ∧
        (ShowsPageLink parent.display ↔
          parentField.isSome ∨ (TypeExpr.read token).SpellsPageLink settings)) := by
  intro r token parent
  obtain ⟨fragment, hfragment⟩ := hrecord.exists_render active settings hrecords
  have hdocumented : record.DocumentedBy active r (record.parentShown r) _ fragment :=
    Record.documentedBy hfragment
  rw [Record.parentShown_eq] at hdocumented
  refine ⟨fragment, _, hfragment, hdocumented, fun hname => ?_⟩
  have hfield := Record.head?_parentField_iff (r := r) hname
  have hshown := r.resolve_innermost_shownAs (TypeExpr.read token)
  rw [TypeExpr.innermost_of_single hname] at hshown
  refine ⟨hfield, fun field hsome => ?_, ?_⟩
  · obtain ⟨name, hmeans, rfl⟩ := (hfield field).mp hsome
    exact hshown.display_of_means hmeans
  · have hpresent : (Record.parentField r (r.resolve (TypeExpr.read token))).head?.isSome ↔
        ∃ name, (TypeExpr.read token).Means r.locals name := by
      rw [Option.isSome_iff_exists]
      constructor
      · rintro ⟨field, hsome⟩
        obtain ⟨name, hmeans, -⟩ := (hfield field).mp hsome
        exact ⟨name, hmeans⟩
      · rintro ⟨name, hmeans⟩
        exact ⟨_, (hfield _).mpr ⟨name, hmeans, rfl⟩⟩
    exact hshown.showsPageLink_iff.trans (or_congr_left hpresent.symm)

/-- A record that reaches its parent by a documented name, with one member that pads it and one that
only seems to. -/
def tagRecord : Record :=
  ⟨.text "Tag", .text "string", [⟨.text "Title", .text "qlist<string>"⟩,
    ⟨.text "m_dummy", .text "uint32"⟩, ⟨.text "Dummy", .text "byte"⟩]⟩

/-- The field of the parent is that of the record which the documented name means, and only the
member with `dummy` in its name has no field. -/
theorem tagRecord_documented :
    ∃ fragment, tagRecord.render {} (some { wikiBase := "wiki" })
        [⟨.text "NexString", .null, []⟩, tagRecord] = .ok fragment ∧
      fragment.doc = "\n".intercalate ["## Tag ([NexString](#nexstring))", "| Name | Type |",
        "| --- | --- |",
        "| Title | [List](wiki/NEX-Common-Types#list)&#x3C;[NexString](#nexstring)&#x3E; |",
        "| m_dummy | u32 |", "| Dummy | u8 |", "```rust",
        "#[derive(Default, EndianRead, EndianWrite)]", "pub struct Tag \x7b",
        "    nexstring: NexString,", "    Title: NexList<NexString>,", "    Dummy: u8,", "\x7d",
        "```"] := by
  have hrecord : tagRecord.Textual := by
    refine ⟨⟨_, rfl⟩, Or.inr ⟨_, rfl⟩, ?_⟩
    simp only [tagRecord, List.forall_mem_cons]
    exact ⟨⟨⟨_, rfl⟩, ⟨_, rfl⟩⟩, ⟨⟨_, rfl⟩, ⟨_, rfl⟩⟩, ⟨⟨_, rfl⟩, ⟨_, rfl⟩⟩, List.forall_mem_nil _⟩
  have hrecords : ∀ other ∈ [⟨.text "NexString", .null, []⟩, tagRecord], other.name.IsText :=
    List.forall_mem_cons.mpr ⟨⟨_, rfl⟩, List.forall_mem_singleton.mpr ⟨_, rfl⟩⟩
  obtain ⟨fragment, parentField, hrender, hdocumented, hparent⟩ :=
    record_section_documents_members {} { wikiBase := "wiki" } tagRecord _ hrecord hrecords
  have hread : TypeExpr.read "string" = .basic "string" := by decide +kernel
  obtain ⟨hfield, -⟩ := hparent ⟨"string", Or.inr hread⟩
  have hmeant : (TypeExpr.read "string").Means ["NexString", "Tag"] "NexString" := by
    rw [hread]
    exact .renamed (by decide) (by decide)
  obtain rfl := (hfield _).mpr ⟨"NexString", hmeant, rfl⟩
  refine ⟨fragment, hrender, hdocumented.doc.trans ?_⟩
  decide +kernel

/-- A record whose parent spells a link. -/
def shadeRecord : Record :=
  ⟨.text "Shade", .text "[Ghost](#ghost)", []⟩

/-- The heading shows the parent as a link within the page, and still there is no field for it: the
name means no record. -/
theorem shadeRecord_linked :
    TypeExpr.read "[Ghost](#ghost)" = .named "[Ghost](#ghost)" ∧
    ShowsPageLink (Resolver.resolveSpelling ⟨["Shade"], {}⟩ "[Ghost](#ghost)").display ∧
    ∃ fragment, shadeRecord.render {} (some {}) [shadeRecord] = .ok fragment ∧
      fragment.doc = "\n".intercalate ["## Shade ([Ghost](#ghost))", "| Name | Type |",
        "| --- | --- |", "```rust", "#[derive(Default, EndianRead, EndianWrite)]",
        "pub struct Shade \x7b", "\x7d", "```"] := by
  have hdisplay : (Resolver.resolveSpelling ⟨["Shade"], {}⟩ "[Ghost](#ghost)").display =
      "[" ++ "Ghost" ++ "](#" ++ "ghost" ++ ")" := by
    decide +kernel
  refine ⟨by decide +kernel, ?_, _, rfl, by decide +kernel⟩
  rw [hdisplay]
  exact ⟨"Ghost", "ghost", Shows.refl _⟩

end ProtocolPages
