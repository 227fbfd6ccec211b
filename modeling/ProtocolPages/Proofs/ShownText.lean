import ProtocolPages.Page.Document
import ProtocolPages.Proofs.Sequence

/-!
# What a document shows

A document is put together from sections, and a section from lines. What has been written stays: a
text that stands in a fragment stands in everything that the fragment becomes a part of. So the row
and the field of every parameter and every member can be found in the document, and each record has
its section under the heading of the types.
-/

namespace ProtocolPages

/-- The part stands somewhere in the text. -/
def Shows (text part : String) : Prop :=
  ∃ before after, text = before ++ part ++ after

namespace Shows

variable {text part inner : String} {parts : List String}

/-- A text shows itself. -/
theorem refl (text : String) : Shows text text :=
  ⟨"", "", by simp⟩

/-- What a text shows is shown behind anything. -/
theorem append_left (before : String) (h : Shows text part) : Shows (before ++ text) part := by
  obtain ⟨start, rest, rfl⟩ := h
  exact ⟨before ++ start, rest, by simp [String.append_assoc]⟩

/-- What a text shows is shown in front of anything. -/
theorem append_right (after : String) (h : Shows text part) : Shows (text ++ after) part := by
  obtain ⟨start, rest, rfl⟩ := h
  exact ⟨start, rest ++ after, by simp [String.append_assoc]⟩

/-- What a part shows is shown by the whole. -/
theorem trans (h : Shows text part) (hinner : Shows part inner) : Shows text inner := by
  obtain ⟨before, after, rfl⟩ := h
  exact (hinner.append_left before).append_right after

/-- Texts one after another show each of them. -/
theorem join (h : part ∈ parts) : Shows (String.join parts) part := by
  induction parts with
  | nil => cases h
  | cons first rest ih =>
    rw [String.join_cons]
    rcases List.mem_cons.mp h with rfl | hlater
    · exact (refl part).append_right _
    · exact (ih hlater).append_left _

/-- Texts with a separator in between show each of them. -/
theorem intercalate (separator : String) (h : part ∈ parts) :
    Shows (separator.intercalate parts) part := by
  induction parts with
  | nil => cases h
  | cons first rest ih =>
    by_cases hrest : rest = []
    · subst hrest
      obtain rfl := List.mem_singleton.mp h
      rw [String.intercalate_singleton]
      exact refl part
    · rw [String.intercalate_cons_of_ne_nil hrest]
      rcases List.mem_cons.mp h with rfl | hlater
      · exact ((refl part).append_right _).append_right _
      · exact (ih hlater).append_left _

end Shows

/-- What is shown of each result is shown for each item. -/
theorem exists_shown {ε α β : Type} {f : α → Except ε β} {items : List α} {bs : List β}
    (h : items.mapM f = .ok bs) {text : String} {part : β → String}
    (hparts : ∀ b ∈ bs, Shows text (part b)) :
    ∀ item ∈ items, ∃ b, f item = .ok b ∧ Shows text (part b) := by
  intro item hitem
  obtain ⟨b, hb, hstep⟩ := exists_of_mapM_eq_ok h hitem
  exact ⟨b, hstep, hparts b hb⟩

/-! ## Lines -/

/-- Lines, each behind its line feed. -/
def linesText (lines : List String) : String :=
  String.join (lines.map ("\n" ++ ·))

/-- Lines show each of them. -/
theorem shows_linesText {lines : List String} {line : String} (h : line ∈ lines) :
    Shows (linesText lines) line :=
  (Shows.join (List.mem_map_of_mem h)).trans ((Shows.refl line).append_left "\n")

namespace Builder

/-- Nothing has no text. -/
@[simp] theorem build_empty : empty.build = "" := rfl

/-- A text is added at the end, and the empty text adds nothing. -/
@[simp] theorem build_append (b : Builder) (s : String) : (b.append s).build = b.build ++ s := by
  unfold append build
  split
  · next hempty => rw [String.isEmpty_iff.mp hempty, String.append_empty]
  · rw [String.join_append, String.join_cons, String.join_nil, String.append_empty]

/-- A line is added at the end, behind a line feed. -/
@[simp] theorem build_line (b : Builder) (s : String) :
    (b.line s).build = b.build ++ ("\n" ++ s) := by
  rw [line, build_append, build, String.join_append, String.join_cons, String.join_nil,
    String.append_empty, ← build, String.append_assoc]

/-- Lines are added one after another. -/
theorem build_foldl_line (b : Builder) (lines : List String) :
    (lines.foldl line b).build = b.build ++ linesText lines := by
  induction lines generalizing b with
  | nil => simp [linesText]
  | cons first rest ih =>
    rw [List.foldl_cons, ih, build_line]
    simp [linesText, String.append_assoc]

/-- A row is a line. -/
@[simp] theorem build_rows (b : Builder) (table : List (List String)) :
    (b.rows table).build = b.build ++ linesText (table.map rowText) := by
  rw [← build_foldl_line, List.foldl_map]
  rfl

/-- The head of a table is two lines. -/
@[simp] theorem build_tableHeader (b : Builder) (titles : List String) :
    (b.tableHeader titles).build = b.build ++
      linesText [rowText titles, rowText (List.replicate titles.length "---")] :=
  build_foldl_line b [rowText titles, rowText (List.replicate titles.length "---")]

end Builder

/-- The lines of the fields of a stub are added at the end. -/
theorem build_fields (b : Builder) (fields : List StubField) :
    (fields.foldl (fun b f => b.line f.line) b).build =
      b.build ++ linesText (fields.map StubField.line) := by
  rw [← Builder.build_foldl_line, List.foldl_map]

/-- A stub shows the line of each of its fields. -/
theorem shows_renderStub (active settings : Settings) (name : String) {fields : List StubField}
    {field : StubField} (h : field ∈ fields) :
    Shows (renderStub active (some settings) name fields) field.line := by
  simp only [renderStub, Builder.build_line, build_fields]
  have hshown := shows_linesText (List.mem_map_of_mem (f := StubField.line) h)
  exact ((hshown.append_left _).append_right _).append_right _

/-! ## Sections -/

namespace Method

variable {active settings : Settings} {m : Method} {index : Int} {records : List Record}

/-- A table of parameters, or the notice if there are none. -/
def tableText (rows : List (List String)) (notice : String) : String :=
  if rows.isEmpty then "\n" ++ notice
  else linesText (Builder.rowText ["Type", "Name", "Description"] ::
    Builder.rowText ["---", "---", "---"] :: rows.map Builder.rowText)

/-- A table is added at the end. -/
theorem build_addTable (b : Builder) (rows : List (List String)) (notice : String) :
    (addTable b rows notice).build = b.build ++ tableText rows notice := by
  unfold addTable tableText
  split
  · exact b.build_line notice
  · simp [linesText, String.append_assoc]

/-- A table shows each of its rows. -/
theorem shows_tableText {rows : List (List String)} {row : List String} (notice : String)
    (h : row ∈ rows) : Shows (tableText rows notice) (Builder.rowText row) := by
  have hfilled : rows.isEmpty = false := List.isEmpty_eq_false_iff_exists_mem.mpr ⟨row, h⟩
  rw [tableText, hfilled]
  refine shows_linesText ?_
  exact List.mem_cons_of_mem _ (List.mem_cons_of_mem _ (List.mem_map_of_mem h))

/-- The section of a method, given the rows and the stub of each direction. -/
def sectionText (m : Method) (index : Int) (requestRows : List (List String)) (input : String)
    (responseRows : List (List String)) (output : String) : String :=
  "# (" ++ toString index ++ ") " ++ m.name.plain ++ linesText ["", "## Request"] ++
    tableText requestRows noRequest ++ linesText [input, "", "## Response"] ++
    tableText responseRows noResponse ++ linesText [output]

/-- What goes into the section of a method. -/
theorem render_cases {fragment : Fragment}
    (h : m.render active (some settings) index records = .ok fragment) :
    ∃ resolver inputs outputs requestRows responseRows,
      Resolver.ofRecords active (some settings) records = .ok resolver ∧
      m.request.mapM (inputField resolver) = .ok inputs ∧
      m.response.mapM (outputField settings resolver) = .ok outputs ∧
      m.request.mapM (parameterRow resolver) = .ok requestRows ∧
      m.response.mapM (parameterRow resolver) = .ok responseRows ∧
      fragment.doc = m.sectionText index
        requestRows (renderStub active (some settings) (m.name.plain ++ "Input") inputs)
        responseRows (renderStub active (some settings) (m.name.plain ++ "Output") outputs) := by
  simp only [render, Settings.choose_some, bind_eq_ok_iff] at h
  obtain ⟨resolver, hresolver, inputs, hinputs, outputs, houtputs, requestRows, hrequestRows,
    responseRows, hresponseRows, hfragment⟩ := h
  refine ⟨resolver, inputs, outputs, requestRows, responseRows, hresolver, hinputs, houtputs,
    hrequestRows, hresponseRows, ?_⟩
  rw [← Except.ok.inj hfragment]
  simp [sectionText, build_addTable, linesText, String.append_assoc]

/-- A method section shows the row and the field of each parameter. -/
theorem shows_parameters {fragment : Fragment}
    (h : m.render active (some settings) index records = .ok fragment) :
    ∃ resolver, Resolver.ofRecords active (some settings) records = .ok resolver ∧
      (∀ p ∈ m.request ++ m.response, ∃ row, parameterRow resolver p = .ok row ∧
        Shows fragment.doc (Builder.rowText row)) ∧
      (∀ p ∈ m.request, ∃ field, inputField resolver p = .ok field ∧
        Shows fragment.doc field.line) ∧
      ∀ p ∈ m.response, ∃ field, outputField settings resolver p = .ok field ∧
        Shows fragment.doc field.line := by
  obtain ⟨resolver, inputs, outputs, requestRows, responseRows, hresolver, hinputs, houtputs,
    hrequestRows, hresponseRows, hdoc⟩ := render_cases h
  rw [hdoc, sectionText]
  refine ⟨resolver, hresolver, List.forall_mem_append.mpr ⟨?_, ?_⟩, ?_, ?_⟩
  · refine exists_shown hrequestRows fun row hrow => ?_
    have htable := shows_tableText noRequest hrow
    exact (((htable.append_left _).append_right _).append_right _).append_right _
  · refine exists_shown hresponseRows fun row hrow => ?_
    exact ((shows_tableText noResponse hrow).append_left _).append_right _
  · refine exists_shown hinputs fun field hfield => ?_
    have hstub := shows_renderStub active settings (m.name.plain ++ "Input") hfield
    refine Shows.append_right _ (Shows.append_right _ (Shows.append_left _ ?_))
    exact (shows_linesText List.mem_cons_self).trans hstub
  · refine exists_shown houtputs fun field hfield => ?_
    have hstub := shows_renderStub active settings (m.name.plain ++ "Output") hfield
    exact ((shows_linesText List.mem_cons_self).trans hstub).append_left _

end Method

namespace Record

variable {active settings : Settings} {r : Record} {records : List Record}

/-- The heading of a record section. -/
def headingText (r : Record) (parent : Reference) : String :=
  "## " ++ r.name.plain ++ " (" ++ parent.display ++ ")"

/-- The section of a record, given the resolved parent and members and the stub. -/
def sectionText (r : Record) (parent : Reference) (members : List (String × Reference))
    (stub : String) : String :=
  r.headingText parent ++ linesText (Builder.rowText ["Name", "Type"] ::
    Builder.rowText ["---", "---"] ::
    members.map fun (name, type) => Builder.rowText [name, type.cell]) ++ linesText [stub]

/-- What goes into the section of a record. -/
theorem render_cases {fragment : Fragment}
    (h : r.render active (some settings) records = .ok fragment) :
    ∃ resolver parent members, Resolver.ofRecords active (some settings) records = .ok resolver ∧
      resolver.resolveValue (r.parentSpelling settings) = .ok parent ∧
      r.members.mapM (resolveMember resolver) = .ok members ∧
      fragment.stubs = [renderStub active (some settings) r.name.plain
        (parentField resolver parent ++ memberFields members)] ∧
      fragment.doc = r.sectionText parent members (renderStub active (some settings) r.name.plain
        (parentField resolver parent ++ memberFields members)) := by
  simp only [render, Settings.choose_some, bind_eq_ok_iff] at h
  obtain ⟨resolver, hresolver, parent, hparent, members, hmembers, hfragment⟩ := h
  refine ⟨resolver, parent, members, hresolver, hparent, hmembers, ?_, ?_⟩
  · rw [← Except.ok.inj hfragment]
  · rw [← Except.ok.inj hfragment]
    simp [sectionText, headingText, linesText, String.append_assoc, Function.comp_def]

/-- A member that is more than padding has a field. -/
theorem mem_memberFields {members : List (String × Reference)} {name : String} {type : Reference}
    (h : (name, type) ∈ members) (hname : isPadding name = false) :
    StubField.mk name type.stub ∈ memberFields members := by
  refine List.mem_map.mpr ⟨(name, type), List.mem_filter.mpr ⟨h, ?_⟩, rfl⟩
  simp only [hname, Bool.not_false]

/-- A record section starts with the heading, and shows the row of each member and the field of each
member that is more than padding. -/
theorem shows_members {fragment : Fragment}
    (h : r.render active (some settings) records = .ok fragment) :
    ∃ resolver parent, Resolver.ofRecords active (some settings) records = .ok resolver ∧
      resolver.resolveValue (r.parentSpelling settings) = .ok parent ∧
      (∃ rest, fragment.doc = r.headingText parent ++ rest) ∧
      ∀ m ∈ r.members, ∃ name type, resolveMember resolver m = .ok (name, type) ∧
        Shows fragment.doc (Builder.rowText [name, type.cell]) ∧
        (isPadding name = false → Shows fragment.doc (StubField.mk name type.stub).line) := by
  obtain ⟨resolver, parent, members, hresolver, hparent, hmembers, -, hdoc⟩ := render_cases h
  rw [hdoc, sectionText]
  refine ⟨resolver, parent, hresolver, hparent, ⟨_, String.append_assoc⟩, fun m hm => ?_⟩
  obtain ⟨⟨name, type⟩, hmember, hstep⟩ := exists_of_mapM_eq_ok hmembers hm
  refine ⟨name, type, hstep, ?_, fun hname => ?_⟩
  · refine Shows.append_right _ (Shows.append_left _ (shows_linesText ?_))
    refine List.mem_cons_of_mem _ (List.mem_cons_of_mem _ ?_)
    exact List.mem_map.mpr ⟨(name, type), hmember, rfl⟩
  · have hfield := List.mem_append_right (parentField resolver parent)
      (mem_memberFields hmember hname)
    have hstub := shows_renderStub active settings r.name.plain hfield
    exact ((shows_linesText List.mem_cons_self).trans hstub).append_left _

end Record

/-! ## Documents -/

namespace Protocol

variable {active settings : Settings} {p : Protocol} {text : String}

/-- What goes into a document. -/
theorem render_cases (h : p.render active (some settings) = .ok text) :
    ∃ methods records, p.methodSections active settings = .ok methods ∧
      p.recordSections active settings = .ok records ∧
      text = String.intercalate "\n\n"
        ([p.header settings, methodIndex p.methods] ++ methods ++ records) := by
  simp only [render, Settings.choose_some, bind_eq_ok_iff] at h
  obtain ⟨methods, hmethods, records, hrecords, htext⟩ := h
  exact ⟨methods, records, hmethods, hrecords, (Except.ok.inj htext).symm⟩

/-- The sections of the records stand under the heading of the types, one for each. -/
theorem recordSections_cases {sections : List String}
    (h : p.recordSections active settings = .ok sections) {r : Record} (hr : r ∈ p.records) :
    ∃ later fragment, sections = typesHeading :: later ∧
      r.render active (some settings) p.records = .ok fragment ∧ fragment.doc ∈ later := by
  have hfilled : p.records.isEmpty = false := List.isEmpty_eq_false_iff_exists_mem.mpr ⟨r, hr⟩
  simp only [recordSections, hfilled, Bool.false_eq_true, if_false, bind_eq_ok_iff] at h
  obtain ⟨later, hlater, hsections⟩ := h
  obtain ⟨doc, hdoc, hstep⟩ := exists_of_mapM_eq_ok hlater hr
  obtain ⟨fragment, hfragment, hreturn⟩ := bind_eq_ok_iff.mp hstep
  obtain rfl : fragment.doc = doc := Except.ok.inj hreturn
  exact ⟨later, fragment, (Except.ok.inj hsections).symm, hfragment, hdoc⟩

/-- A document shows the section of each method. -/
theorem shows_method (h : p.render active (some settings) = .ok text) {m : Method}
    (hm : m ∈ p.methods) :
    ∃ (index : Nat) (fragment : Fragment),
      m.render active (some settings) index p.records = .ok fragment ∧
      Shows text fragment.doc := by
  obtain ⟨methods, records, hmethods, -, rfl⟩ := render_cases h
  obtain ⟨i, hi⟩ := List.getElem?_of_mem hm
  have hnumbered : (m, 1 + i) ∈ p.methods.zipIdx 1 := List.mk_add_mem_zipIdx_iff_getElem?.mpr hi
  obtain ⟨doc, hdoc, hstep⟩ := exists_of_mapM_eq_ok hmethods hnumbered
  obtain ⟨fragment, hfragment, hreturn⟩ := bind_eq_ok_iff.mp hstep
  obtain rfl : fragment.doc = doc := Except.ok.inj hreturn
  refine ⟨1 + i, fragment, hfragment, Shows.intercalate _ ?_⟩
  exact List.mem_append_left _ (List.mem_append_right _ hdoc)

/-- A document shows the section of each record. -/
theorem shows_record (h : p.render active (some settings) = .ok text) {r : Record}
    (hr : r ∈ p.records) :
    ∃ fragment, r.render active (some settings) p.records = .ok fragment ∧
      Shows text fragment.doc := by
  obtain ⟨methods, records, -, hrecords, rfl⟩ := render_cases h
  obtain ⟨later, fragment, rfl, hfragment, hdoc⟩ := recordSections_cases hrecords hr
  refine ⟨fragment, hfragment, Shows.intercalate _ ?_⟩
  exact List.mem_append_right _ (List.mem_cons_of_mem _ hdoc)

end Protocol

end ProtocolPages
