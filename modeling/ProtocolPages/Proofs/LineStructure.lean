import ProtocolPages.Proofs.CharacterReferences
import ProtocolPages.Proofs.CrossReferences
import ProtocolPages.Proofs.Spelling

/-!
# The lines of a document

The lines of a document are known before it is put together: the header, the index, the lines of
each method and those of each record, with a blank line in front of each section. They are listed
here straight from the protocol. The document is these lines and nothing else, as long as no name,
type or setting brings a line feed of its own; and since no other line can be taken for a fence, the
fences of the stubs open and close in turn.
-/

namespace ProtocolPages

/-! ## Lines of a text -/

/-- The text has no line feed. -/
def OneLine (s : String) : Prop :=
  '\n' ∉ s.toList

instance (s : String) : Decidable (OneLine s) :=
  inferInstanceAs (Decidable ('\n' ∉ s.toList))

/-- The lines of a text, as its line feeds divide it. -/
def Text.lines (s : String) : List String :=
  (s.toList.splitOn '\n').map String.ofList

/-- Texts are on one line together if each of them is. -/
@[simp] theorem oneLine_append {s t : String} : OneLine (s ++ t) ↔ OneLine s ∧ OneLine t := by
  simp [OneLine]

/-- Lines that are joined by line feeds are the lines of the text. -/
theorem Text.lines_intercalate {lines : List String} (hne : lines ≠ [])
    (h : ∀ line ∈ lines, OneLine line) : Text.lines ("\n".intercalate lines) = lines := by
  have hsplit : (['\n'].intercalate (lines.map String.toList)).splitOn '\n' =
      lines.map String.toList :=
    List.splitOn_intercalate '\n' (List.forall_mem_map.mpr h) (by simpa using hne)
  have hchars : ("\n".intercalate lines).toList = ['\n'].intercalate (lines.map String.toList) :=
    String.toList_intercalate
  rw [Text.lines, hchars, hsplit, List.map_map]
  simp [Function.comp_def]

/-- A text whose last line is not empty does not end with a line feed. -/
theorem Text.getLast?_ne_of_lines {s : String} (h : (Text.lines s).getLast? ≠ some "") :
    s.toList.getLast? ≠ some '\n' := by
  intro hlast
  have hchars := List.dropLast_append_getLast? '\n' hlast
  have hsplit : s.toList.splitOn '\n' = s.toList.dropLast.splitOn '\n' ++ [[]] := by
    conv_lhs => rw [← hchars]
    exact List.splitOnP_append_cons _ _ (by simp)
  apply h
  rw [Text.lines, hsplit]
  simp

@[simp] theorem linesText_nil : linesText [] = "" := rfl

@[simp] theorem linesText_cons (line : String) (lines : List String) :
    linesText (line :: lines) = "\n" ++ (line ++ linesText lines) := by
  simp [linesText, String.append_assoc]

/-- Lines are written in two goes as in one. -/
theorem linesText_append (lines more : List String) :
    linesText (lines ++ more) = linesText lines ++ linesText more := by
  simp [linesText]

/-- Lines joined by line feeds are the first one and the others behind theirs. -/
theorem intercalate_cons (first : String) (lines : List String) :
    "\n".intercalate (first :: lines) = first ++ linesText lines := by
  induction lines generalizing first with
  | nil => simp [linesText]
  | cons second rest ih =>
    rw [String.intercalate_cons_of_ne_nil (List.cons_ne_nil second rest), ih]
    simp [linesText, String.append_assoc]

/-- Sections that are separated by blank lines are their lines, with an empty one in front of
each. -/
theorem intercalate_sections (first : String) (sections : List (List String))
    (h : ∀ lines ∈ sections, lines ≠ []) :
    "\n\n".intercalate (first :: sections.map ("\n".intercalate ·)) =
      "\n".intercalate (first :: sections.flatMap ("" :: ·)) := by
  induction sections generalizing first with
  | nil => simp
  | cons lines rest ih =>
    obtain ⟨hlines, hrest⟩ := List.forall_mem_cons.mp h
    obtain ⟨head, tail, rfl⟩ := List.exists_cons_of_ne_nil hlines
    have hblank : "\n\n" = "\n" ++ "\n" := rfl
    rw [List.map_cons, String.intercalate_cons_of_ne_nil (List.cons_ne_nil _ _), ih _ hrest,
      List.flatMap_cons, intercalate_cons, intercalate_cons, intercalate_cons, hblank]
    simp only [linesText, List.cons_append, List.map_cons, List.map_append, String.join_cons,
      String.join_append, String.append_assoc, String.append_empty]

/-! ## Texts that stay on one line -/

namespace Text

/-- Lower-casing brings no line feed. -/
theorem oneLine_lower {s : String} (h : OneLine s) : OneLine (lower s) :=
  fun hmem => h (mem_of_mem_lower (by decide) (by decide) hmem)

/-- Writing characters as references brings no line feed. -/
theorem oneLine_encodeEntities {s : String} (h : OneLine s) : OneLine (encodeEntities s) := by
  rw [OneLine, encodeEntities, String.toList_ofList, List.mem_flatMap]
  rintro ⟨c, hc, hmem⟩
  unfold encodeEntity at hmem
  split at hmem
  · have hdigits : '\n' ∈ hexDigits (codePoint c) := by
      simpa [reference] using hmem
    obtain ⟨digit, hsmall, hdigit⟩ := exists_of_mem_hexDigits hdigits
    have hno : ∀ digit < 16, '\n' ≠ (Nat.digitChar digit).toUpper := by decide
    exact hno digit hsmall hdigit
  · obtain rfl := List.mem_singleton.mp hmem
    exact h hc

/-- Every capital of the table lies behind the digits of ASCII. -/
theorem capital_of_mem_caseRuns : ∀ run ∈ caseRuns, 0x41 ≤ run.first := by
  decide +kernel

/-- Signs and digits of ASCII have no small letters. -/
theorem lower_of_low {s : String} (h : ∀ c ∈ s.toList, c.toNat < 0x41) : lower s = s := by
  have hchar (c : Char) (hc : c.toNat < 0x41) : lowerChar c = c := by
    have hnone : caseRuns.find? (·.covers c.toNat) = none := by
      refine List.find?_eq_none.mpr fun run hrun hcovers => ?_
      have hfirst := capital_of_mem_caseRuns run hrun
      simp only [CaseRun.covers, Bool.and_eq_true, decide_eq_true_eq] at hcovers
      omega
    rw [lowerChar, hnone]
  have hafter (before cs : List Char) (h : ∀ c ∈ cs, c.toNat < 0x41) :
      lowerAfter before cs = cs := by
    induction cs generalizing before with
    | nil => rfl
    | cons c rest ih =>
      obtain ⟨hc, hrest⟩ := List.forall_mem_cons.mp h
      have hsigma : c ≠ 'Σ' := by
        rintro rfl
        exact absurd hc (by decide)
      have hdotted : c ≠ 'İ' := by
        rintro rfl
        exact absurd hc (by decide)
      rw [lowerAfter, ih _ hrest, lowerBetween, if_neg hsigma, if_neg hdotted, hchar c hc]
      rfl
  rw [lower, hafter [] _ h, String.ofList_toList]

/-- A number is written in digits. -/
theorem isDigit_of_mem_toString {n : Nat} {c : Char} (h : c ∈ (toString n).toList) :
    c.isDigit = true := by
  refine Nat.isDigit_of_mem_toDigits (b := 10) (n := n) (by decide) (by decide) ?_
  simpa using h

/-- A number is its own lower-cased text. -/
theorem lower_toString (n : Nat) : lower (toString n) = toString n := by
  apply lower_of_low
  intro c hc
  have hdigit := isDigit_of_mem_toString hc
  simp only [Char.isDigit, Bool.and_eq_true, decide_eq_true_eq] at hdigit
  obtain ⟨-, hhigh⟩ := hdigit
  have hcode : c.toNat ≤ 57 := hhigh
  omega

/-- A number is on one line. -/
theorem oneLine_toString (n : Nat) : OneLine (toString n) :=
  fun h => absurd (isDigit_of_mem_toString h) (by decide)

end Text

namespace Glossary

/-- The glossary brings no line feed. -/
theorem oneLine_renames : ∀ entry ∈ renames, OneLine entry.2 := by
  decide +kernel

/-- The anchors of the glossary have no line feeds. -/
theorem oneLine_anchors : ∀ entry ∈ anchors, OneLine entry.2 := by
  decide +kernel

/-- The documented name of a type without line feeds has none. -/
theorem oneLine_rename {name : String} (h : OneLine name) : OneLine (rename name) := by
  unfold rename
  cases hlookup : renames.lookup name with
  | none => exact h
  | some renamed =>
    obtain ⟨before, after, hentries, -⟩ := List.lookup_eq_some_iff.mp hlookup
    exact oneLine_renames (name, renamed) (by simp [hentries])

end Glossary

/-- A stretch of one line is on one line. -/
theorem OneLine.mono {s t : String} (h : OneLine t) (hpart : s.toList <:+: t.toList) :
    OneLine s :=
  fun hmem => h (hpart.subset hmem)

section Resolve

variable {active settings : Settings} (hsettings : ∀ field, OneLine (settings.get field))
include hsettings

/-- Addresses on the wiki have no line feeds. -/
theorem Settings.oneLine_commonTypeUrl {anchor : String} (h : OneLine anchor) :
    OneLine (settings.commonTypeUrl anchor) := by
  have hbase := hsettings .wikiBase
  have hpage := hsettings .commonTypesPage
  simp only [commonTypeUrl, oneLine_append]
  exact ⟨⟨⟨⟨hbase, by decide⟩, hpage⟩, by decide⟩, h⟩

namespace Resolver

/-- A name is shown on one line. -/
theorem oneLine_nameReference (locals : List String) {name : String} (h : OneLine name) :
    OneLine (nameReference ⟨locals, settings⟩ name).display ∧
      OneLine (nameReference ⟨locals, settings⟩ name).stub := by
  have hlocal : OneLine (localReference name).display := by
    simp only [localReference, headingAnchor, List.map_cons, List.map_nil,
      String.intercalate_singleton, oneLine_append]
    exact ⟨⟨⟨⟨by decide, h⟩, by decide⟩, by decide, Text.oneLine_lower h⟩, by decide⟩
  by_cases hname : name ∈ locals
  · rw [nameReference_of_mem (r := ⟨locals, settings⟩) hname]
    exact ⟨hlocal, h⟩
  · rw [nameReference_of_not_mem (r := ⟨locals, settings⟩) hname, outerReference]
    split
    · next anchor hanchor =>
      obtain ⟨before, after, hentries, -⟩ := List.lookup_eq_some_iff.mp hanchor
      have hurl := Settings.oneLine_commonTypeUrl hsettings
        (Glossary.oneLine_anchors (name, anchor) (by simp [hentries]))
      simp only [oneLine_append]
      exact ⟨⟨⟨⟨⟨by decide, h⟩, by decide⟩, hurl⟩, by decide⟩, h⟩
    · exact ⟨h, h⟩

/-- A type whose names are on one line is shown on one line. -/
theorem oneLine_resolve (locals : List String) {e : TypeExpr} (h : ∀ s ∈ e.texts, OneLine s) :
    OneLine (resolve ⟨locals, settings⟩ e).display ∧
      OneLine (resolve ⟨locals, settings⟩ e).stub := by
  induction e with
  | named name => exact oneLine_nameReference hsettings locals (h name List.mem_cons_self)
  | basic name =>
    have hname := h name List.mem_cons_self
    by_cases hmem : name ∈ locals
    · -- A basic spelling that is the name of a record is resolved like a name.
      rw [resolve_basic_of_mem (r := ⟨locals, settings⟩) hmem,
        ← nameReference_of_mem (r := ⟨locals, settings⟩) hmem]
      exact oneLine_nameReference hsettings locals hname
    · rw [resolve_basic_of_not_mem (r := ⟨locals, settings⟩) hmem]
      exact oneLine_nameReference hsettings locals (Glossary.oneLine_rename hname)
  | holder inner raw =>
    have hinner := h inner List.mem_cons_self
    have hraw := h raw (List.mem_cons_of_mem inner List.mem_cons_self)
    have hholder := hsettings .dataHolderStubType
    simp only [resolve, oneLine_append]
    exact ⟨hraw, ⟨⟨hholder, by decide⟩, hinner⟩, by decide⟩
  | list kind inner ih =>
    obtain ⟨hdisplay, hstub⟩ := ih h
    have hurl :=
      Settings.oneLine_commonTypeUrl hsettings (show OneLine Glossary.listAnchor by decide)
    have hlist := hsettings .listStubType
    simp only [resolve, listReference, oneLine_append]
    exact ⟨⟨⟨⟨⟨by decide, hurl⟩, by decide⟩, hdisplay⟩, by decide⟩,
      ⟨⟨hlist, by decide⟩, hstub⟩, by decide⟩

/-- A spelling on one line is shown on one line, in tables and in stubs. -/
theorem oneLine_resolveSpelling (locals : List String) {raw : String} (h : OneLine raw) :
    OneLine (resolveSpelling ⟨locals, settings⟩ raw).display ∧
      OneLine (resolveSpelling ⟨locals, settings⟩ raw).cell ∧
      OneLine (resolveSpelling ⟨locals, settings⟩ raw).stub := by
  have htexts : ∀ s ∈ (TypeExpr.read raw).texts, OneLine s :=
    fun s hs => h.mono (TypeExpr.infix_of_mem_texts hs)
  obtain ⟨hdisplay, hstub⟩ := oneLine_resolve hsettings locals htexts
  exact ⟨hdisplay, Text.oneLine_encodeEntities hdisplay, hstub⟩

end Resolver

end Resolve

/-! ## The lines, listed -/

/-- The lines of a stub. -/
def stubLines (settings : Settings) (name : String) (fields : List StubField) : List String :=
  (fence ++ settings.stubLanguage) :: settings.stubAttributes ::
    ("pub struct " ++ name ++ " \x7b") :: (fields.map StubField.line ++ ["\x7d", fence])

namespace Parameter

/-- The table row of a parameter. -/
def rowLine (r : Resolver) (q : Parameter) : String :=
  "| " ++ (r.resolveSpelling q.type.plain).cell ++ " | " ++ q.name.plain ++ " |  |"

/-- The field of a parameter of a request. -/
def requestField (r : Resolver) (q : Parameter) : StubField :=
  ⟨Text.lower q.name.plain, (r.resolveSpelling q.type.plain).stub⟩

/-- The field of a parameter of a response. -/
def responseField (r : Resolver) (q : Parameter) : StubField :=
  let name := Text.lower q.name.plain
  let isReturn := q.isReturn || name = Text.lower r.settings.returnValueMarker
  ⟨if isReturn then Method.returnField else name, (r.resolveSpelling q.type.plain).stub⟩

end Parameter

namespace Method

/-- The line of a method in the index. -/
def indexLine (m : Method) (index : Nat) : String :=
  "| " ++ toString index ++ " | [" ++ m.name.plain ++ "](#" ++ toString index ++ "-" ++
    Text.lower m.name.plain ++ ") |"

/-- The lines of a table of parameters, or the notice if there are none. -/
def tableLines (notice : String) (rows : List String) : List String :=
  if rows.isEmpty then [notice]
  else "| Type | Name | Description |" :: "| --- | --- | --- |" :: rows

/-- The lines of a method section. -/
def lines (r : Resolver) (m : Method) (index : Nat) : List String :=
  ("# (" ++ toString index ++ ") " ++ m.name.plain) :: "" :: "## Request" ::
    (tableLines noRequest (m.request.map (·.rowLine r)) ++
      stubLines r.settings (m.name.plain ++ "Input") (m.request.map (·.requestField r)) ++
      ["", "## Response"] ++
      tableLines noResponse (m.response.map (·.rowLine r)) ++
      stubLines r.settings (m.name.plain ++ "Output") (m.response.map (·.responseField r)))

/-- The lines of a method section behind its heading, which do not depend on its number. -/
def bodyLines (r : Resolver) (m : Method) : List String :=
  (m.lines r 0).tail

end Method

/-- The name of a member and the reference to its type. -/
def Member.shown (r : Resolver) (m : Member) : String × Reference :=
  (m.name.plain, r.resolveSpelling m.type.plain)

/-- The table row of a member. -/
def Member.rowLine (r : Resolver) (m : Member) : String :=
  "| " ++ m.name.plain ++ " | " ++ (r.resolveSpelling m.type.plain).cell ++ " |"

namespace Record

/-- The reference to the parent of a record. -/
def parentShown (r : Resolver) (record : Record) : Reference :=
  r.resolveSpelling (record.parentSpelling r.settings).plain

/-- The lines of a record section. -/
def lines (r : Resolver) (record : Record) : List String :=
  ("## " ++ record.name.plain ++ " (" ++ (record.parentShown r).display ++ ")") ::
    "| Name | Type |" :: "| --- | --- |" ::
    (record.members.map (·.rowLine r) ++
      stubLines r.settings record.name.plain (parentField r (record.parentShown r) ++
        memberFields (record.members.map (·.shown r))))

end Record

namespace Protocol

/-- The sections of the methods, each as its lines. -/
def methodLines (r : Resolver) (p : Protocol) : List (List String) :=
  (p.methods.zipIdx 1).map fun numbered => numbered.1.lines r numbered.2

/-- The sections of the records under their heading, each as its lines; nothing if there are no
records. -/
def recordLines (r : Resolver) (p : Protocol) : List (List String) :=
  if p.records.isEmpty then [] else ["# Types"] :: p.records.map (·.lines r)

/-- What types are looked up in within the sections of a protocol. -/
def sectionResolver (settings : Settings) (p : Protocol) : Resolver :=
  ⟨p.records.filterMap (·.name.text?), settings⟩

/-- The lines of the document of a protocol. -/
def lines (settings : Settings) (p : Protocol) : List String :=
  let r := p.sectionResolver settings
  p.header settings :: "" :: "| Method ID | Method Name |" :: "| --- | --- |" ::
    ((p.methods.zipIdx 1).map (fun numbered => numbered.1.indexLine numbered.2) ++
      (p.methodLines r ++ p.recordLines r).flatMap ("" :: ·))

end Protocol

/-! ## The document is its lines -/

/-- A stub is its lines. -/
theorem renderStub_eq (active settings : Settings) (name : String) (fields : List StubField) :
    renderStub active (some settings) name fields =
      "\n".intercalate (stubLines settings name fields) := by
  rw [stubLines, intercalate_cons]
  simp only [renderStub, Builder.build_line, build_fields, Builder.build_append,
    Builder.build_empty]
  simp [linesText, String.append_assoc]

/-- A stub among lines stands for its lines. -/
theorem linesText_renderStub (active settings : Settings) (name : String) (fields : List StubField)
    (more : List String) :
    linesText (renderStub active (some settings) name fields :: more) =
      linesText (stubLines settings name fields ++ more) := by
  rw [renderStub_eq, stubLines, intercalate_cons]
  simp only [linesText_cons, linesText_append, List.cons_append, String.append_assoc]

/-- The reference to the type that a value spells. -/
theorem Resolver.eq_of_resolveValue {r : Resolver} {v : Value} {reference : Reference}
    (h : r.resolveValue v = .ok reference) : reference = r.resolveSpelling v.plain := by
  obtain ⟨raw, rfl, rfl⟩ := resolveValue_cases h
  rfl

namespace Parameter

variable {r : Resolver} {q : Parameter}

/-- The cells of the table row of a parameter. -/
def rowCells (r : Resolver) (q : Parameter) : List String :=
  [(r.resolveSpelling q.type.plain).cell, q.name.plain, ""]

/-- The cells of a parameter make its row. -/
theorem rowText_rowCells (r : Resolver) (q : Parameter) :
    Builder.rowText (q.rowCells r) = q.rowLine r := by
  have hcells : (" | ").intercalate (q.rowCells r) =
      (r.resolveSpelling q.type.plain).cell ++ " | " ++ (q.name.plain ++ " | " ++ "") := by
    simp only [rowCells, String.intercalate_cons_of_ne_nil, String.intercalate_singleton, ne_eq,
      reduceCtorEq, not_false_eq_true]
  have hend : " |  |" = " | " ++ "" ++ " |" := rfl
  rw [Builder.rowText, hcells, rowLine, hend]
  simp only [String.append_assoc]

/-- A row that is made of a parameter has its cells. -/
theorem eq_rowCells {row : List String} (h : Method.parameterRow r q = .ok row) :
    row = q.rowCells r := by
  obtain ⟨type, htype, hrow⟩ := bind_eq_ok_iff.mp h
  obtain rfl := Resolver.eq_of_resolveValue htype
  exact (Except.ok.inj hrow).symm

/-- A field that is made of a parameter for the request. -/
theorem eq_requestField {field : StubField} (h : Method.inputField r q = .ok field) :
    field = q.requestField r := by
  obtain ⟨raw, hraw, rfl⟩ := field_cases id h
  rw [requestField, hraw]
  rfl

/-- A field that is made of a parameter for the response. -/
theorem eq_responseField {field : StubField}
    (h : Method.outputField r.settings r q = .ok field) :
    field = q.responseField r := by
  obtain ⟨raw, hraw, rfl⟩ := field_cases (fun name =>
    if q.isReturn || name = Text.lower r.settings.returnValueMarker then Method.returnField
    else name) h
  rw [responseField, hraw]
  rfl

end Parameter

/-- A member that is resolved is shown as that. -/
theorem Member.eq_shown {r : Resolver} {m : Member} {entry : String × Reference}
    (h : Record.resolveMember r m = .ok entry) : entry = m.shown r := by
  obtain ⟨name, type⟩ := entry
  obtain ⟨rfl, raw, hraw, rfl⟩ := Record.resolveMember_cases h
  rw [shown, hraw]
  rfl

namespace Method

variable {active settings : Settings} {m : Method} {records : List Record}

/-- A table is its lines. -/
theorem tableText_eq (rows : List (List String)) (notice : String) :
    tableText rows notice = linesText (tableLines notice (rows.map Builder.rowText)) := by
  cases rows with
  | nil => simp [tableText, tableLines, linesText]
  | cons row rest => rfl

/-- A method section is a heading with its number, and the lines behind it. -/
theorem section_eq {index : Int} {fragment : Fragment}
    (h : m.render active (some settings) index records = .ok fragment) :
    fragment.doc = "\n".intercalate (("# (" ++ toString index ++ ") " ++ m.name.plain) ::
      m.bodyLines ⟨records.filterMap (·.name.text?), settings⟩) := by
  obtain ⟨resolver, inputs, outputs, requestRows, responseRows, hresolver, hinputs, houtputs,
    hrequestRows, hresponseRows, hdoc⟩ := render_cases h
  obtain rfl := Resolver.ofRecords_cases hresolver
  obtain rfl := eq_map_of_mapM_eq_ok hinputs fun q _ _ => Parameter.eq_requestField
  obtain rfl := eq_map_of_mapM_eq_ok houtputs fun q _ _ => Parameter.eq_responseField
  obtain rfl := eq_map_of_mapM_eq_ok hrequestRows fun q _ _ => Parameter.eq_rowCells
  obtain rfl := eq_map_of_mapM_eq_ok hresponseRows fun q _ _ => Parameter.eq_rowCells
  have hrows (r : Resolver) (parameters : List Parameter) :
      (parameters.map (·.rowCells r)).map Builder.rowText = parameters.map (·.rowLine r) := by
    rw [List.map_map]
    exact List.map_congr_left fun q _ => q.rowText_rowCells r
  rw [hdoc, sectionText, bodyLines, lines, List.tail_cons, intercalate_cons, tableText_eq,
    tableText_eq, linesText_renderStub, linesText_renderStub, hrows, hrows]
  simp only [linesText_append, linesText_cons, linesText_nil, String.append_assoc,
    String.append_empty]

/-- A method section is its lines. -/
theorem doc_eq {index : Nat} {fragment : Fragment}
    (h : m.render active (some settings) index records = .ok fragment) :
    fragment.doc =
      "\n".intercalate (m.lines ⟨records.filterMap (·.name.text?), settings⟩ index) := by
  have hnumber : toString (index : Int) = toString index := rfl
  rw [section_eq h, hnumber, bodyLines, lines, lines, List.tail_cons]

end Method

namespace Record

variable {active settings : Settings} {record : Record} {records : List Record}

/-- A record section is its lines, and its stub is the one in them. -/
theorem fragment_eq {fragment : Fragment}
    (h : record.render active (some settings) records = .ok fragment) :
    let r : Resolver := ⟨records.filterMap (·.name.text?), settings⟩
    fragment.doc = "\n".intercalate (record.lines r) ∧
      fragment.stubs = [renderStub active (some settings) record.name.plain
        (parentField r (record.parentShown r) ++
          memberFields (record.members.map (·.shown r)))] := by
  obtain ⟨resolver, parent, members, hresolver, hparent, hmembers, hstubs, hdoc⟩ :=
    render_cases h
  obtain rfl := Resolver.ofRecords_cases hresolver
  obtain rfl := Resolver.eq_of_resolveValue hparent
  obtain rfl := eq_map_of_mapM_eq_ok hmembers fun m _ _ => Member.eq_shown
  refine ⟨?_, hstubs⟩
  have hrows (r : Resolver) : (record.members.map (·.shown r)).map
      (fun entry => Builder.rowText [entry.1, entry.2.cell]) =
        record.members.map (·.rowLine r) := by
    rw [List.map_map]
    refine List.map_congr_left fun m _ => ?_
    simp [Member.shown, Member.rowLine, Builder.rowText, String.append_assoc]
  have hsection (parent : Reference) (members : List (String × Reference)) (stub : String) :
      record.sectionText parent members stub = record.headingText parent ++
        linesText ("| Name | Type |" :: "| --- | --- |" ::
          members.map fun entry => Builder.rowText [entry.1, entry.2.cell]) ++
        linesText [stub] := rfl
  rw [hdoc, hsection, lines, intercalate_cons, linesText_renderStub, hrows]
  simp only [headingText, parentShown, linesText_append, linesText_cons, linesText_nil,
    String.append_assoc, String.append_empty]

/-- A record section is its lines. -/
theorem doc_eq {fragment : Fragment}
    (h : record.render active (some settings) records = .ok fragment) :
    fragment.doc =
      "\n".intercalate (record.lines ⟨records.filterMap (·.name.text?), settings⟩) :=
  (fragment_eq h).1

end Record

namespace Protocol

variable {active settings : Settings} {p : Protocol} {text : String}

/-- The index is its lines. -/
theorem methodIndex_eq (methods : List Method) :
    methodIndex methods = "\n".intercalate ("| Method ID | Method Name |" :: "| --- | --- |" ::
      (methods.zipIdx 1).map fun numbered => numbered.1.indexLine numbered.2) := by
  have hrow (m : Method) (index : Nat) :
      Builder.rowText (indexRow m index) = m.indexLine index := by
    have hlink : " | [" = " | " ++ "[" := rfl
    have hend : ") |" = ")" ++ " |" := rfl
    simp only [indexRow, Builder.rowText, Method.indexLine, headingAnchor, List.map_cons,
      List.map_nil, Text.lower_toString, String.intercalate_cons_cons, String.intercalate_singleton,
      String.append_assoc, hlink, hend]
  rw [intercalate_cons]
  simp only [methodIndex, Builder.build_rows, Builder.build_line, Builder.build_append,
    Builder.build_empty, List.map_map, Function.comp_def, hrow, linesText_cons, String.append_assoc,
    String.empty_append]

/-- The method sections are their lines. -/
theorem methodSections_eq {sections : List String}
    (h : p.methodSections active settings = .ok sections) :
    sections = (p.methodLines (p.sectionResolver settings)).map ("\n".intercalate ·) := by
  rw [methodLines, List.map_map]
  refine eq_map_of_mapM_eq_ok h fun ⟨m, index⟩ _ doc hdoc => ?_
  obtain ⟨fragment, hfragment, hreturn⟩ := bind_eq_ok_iff.mp hdoc
  rw [← Except.ok.inj hreturn, Method.doc_eq hfragment]
  rfl

/-- The record sections are their lines. -/
theorem recordSections_eq {sections : List String}
    (h : p.recordSections active settings = .ok sections) :
    sections = (p.recordLines (p.sectionResolver settings)).map ("\n".intercalate ·) := by
  unfold recordSections at h
  unfold recordLines
  split at h
  · next hempty =>
    rw [if_pos hempty]
    exact (Except.ok.inj h).symm
  · next hempty =>
    rw [if_neg hempty]
    obtain ⟨docs, hdocs, hreturn⟩ := bind_eq_ok_iff.mp h
    have hsections : docs =
        p.records.map fun r => "\n".intercalate (r.lines (p.sectionResolver settings)) := by
      refine eq_map_of_mapM_eq_ok hdocs fun r _ doc hdoc => ?_
      obtain ⟨fragment, hfragment, hreturn⟩ := bind_eq_ok_iff.mp hdoc
      rw [← Except.ok.inj hreturn, Record.doc_eq hfragment]
      rfl
    rw [← Except.ok.inj hreturn, hsections, List.map_cons, List.map_map]
    rfl

/-- No section is without lines. -/
theorem sections_ne_nil (r : Resolver) :
    ∀ lines ∈ p.methodLines r ++ p.recordLines r, lines ≠ [] := by
  refine List.forall_mem_append.mpr ⟨?_, ?_⟩
  · exact List.forall_mem_map.mpr fun _ _ => List.cons_ne_nil _ _
  · unfold recordLines
    split
    · exact List.forall_mem_nil _
    · refine List.forall_mem_cons.mpr ⟨List.cons_ne_nil _ _, ?_⟩
      exact List.forall_mem_map.mpr fun _ _ => List.cons_ne_nil _ _

/-- A document is its lines. -/
theorem text_eq (h : p.render active (some settings) = .ok text) :
    text = "\n".intercalate (p.lines settings) := by
  obtain ⟨methods, records, hmethods, hrecords, rfl⟩ := render_cases h
  obtain rfl := methodSections_eq hmethods
  obtain rfl := recordSections_eq hrecords
  have hsections := intercalate_sections (p.header settings)
    (("| Method ID | Method Name |" :: "| --- | --- |" ::
      (p.methods.zipIdx 1).map fun numbered => numbered.1.indexLine numbered.2) ::
      (p.methodLines (p.sectionResolver settings) ++ p.recordLines (p.sectionResolver settings)))
    (List.forall_mem_cons.mpr ⟨List.cons_ne_nil _ _, sections_ne_nil _⟩)
  rw [methodIndex_eq]
  simp only [List.map_cons, List.map_append, List.flatMap_cons, List.cons_append] at hsections
  exact hsections

end Protocol

/-! ## No line breaks in two -/

/-- The texts of a parameter. -/
def Parameter.texts (q : Parameter) : List String :=
  [q.name.plain, q.type.plain]

/-- The texts of a method and its parameters. -/
def Method.texts (m : Method) : List String :=
  m.name.plain :: (m.request ++ m.response).flatMap Parameter.texts

/-- The texts of a member. -/
def Member.texts (m : Member) : List String :=
  [m.name.plain, m.type.plain]

/-- The texts of a record and its members. -/
def Record.texts (r : Record) : List String :=
  r.name.plain :: r.parent.plain :: r.members.flatMap Member.texts

/-- The texts of a protocol: its name and identifier, and those of its methods and records. -/
def Protocol.texts (p : Protocol) : List String :=
  p.name.plain :: p.id :: (p.methods.flatMap Method.texts ++ p.records.flatMap Record.texts)

section OneLine

variable {active settings : Settings} (hsettings : ∀ field, OneLine (settings.get field))
include hsettings

/-- A stub has no other line feeds than those between its lines. -/
theorem oneLine_of_mem_stubLines {name : String} {fields : List StubField} (hname : OneLine name)
    (hfields : ∀ field ∈ fields, OneLine field.name ∧ OneLine field.type) :
    ∀ line ∈ stubLines settings name fields, OneLine line := by
  have hlanguage := hsettings .stubLanguage
  have hattributes := hsettings .stubAttributes
  simp only [stubLines, List.forall_mem_cons, List.forall_mem_append, List.forall_mem_map,
    oneLine_append]
  refine ⟨⟨by decide, hlanguage⟩, hattributes, ⟨⟨by decide, hname⟩, by decide⟩, ?_, by decide⟩
  intro field hfield
  obtain ⟨hfirst, hsecond⟩ := hfields field hfield
  simp only [StubField.line, oneLine_append]
  exact ⟨⟨⟨⟨by decide, hfirst⟩, by decide⟩, hsecond⟩, by decide⟩

/-- The row and the fields of a parameter are on one line. -/
theorem Parameter.oneLine (locals : List String) {q : Parameter} (h : ∀ s ∈ q.texts, OneLine s) :
    OneLine (q.rowLine ⟨locals, settings⟩) ∧
      (OneLine (q.requestField ⟨locals, settings⟩).name ∧
        OneLine (q.requestField ⟨locals, settings⟩).type) ∧
      OneLine (q.responseField ⟨locals, settings⟩).name ∧
        OneLine (q.responseField ⟨locals, settings⟩).type := by
  have hname := h q.name.plain List.mem_cons_self
  have htype := h q.type.plain (List.mem_cons_of_mem _ List.mem_cons_self)
  obtain ⟨-, hcell, hstub⟩ := Resolver.oneLine_resolveSpelling hsettings locals htype
  have hlower := Text.oneLine_lower hname
  refine ⟨?_, ⟨hlower, hstub⟩, ?_, hstub⟩
  · simp only [rowLine, oneLine_append]
    exact ⟨⟨⟨⟨by decide, hcell⟩, by decide⟩, hname⟩, by decide⟩
  · unfold responseField
    dsimp only
    split
    · decide
    · exact hlower

/-- The lines of a table are on one line each. -/
theorem Method.oneLine_of_mem_tableLines (locals : List String) {notice : String}
    (hnotice : OneLine notice) {parameters : List Parameter}
    (h : ∀ q ∈ parameters, ∀ s ∈ q.texts, OneLine s) :
    ∀ line ∈ tableLines notice (parameters.map (·.rowLine ⟨locals, settings⟩)), OneLine line := by
  unfold tableLines
  split
  · exact List.forall_mem_singleton.mpr hnotice
  · refine List.forall_mem_cons.mpr ⟨by decide, List.forall_mem_cons.mpr ⟨by decide, ?_⟩⟩
    exact List.forall_mem_map.mpr fun q hq => (q.oneLine hsettings locals (h q hq)).1

/-- The lines of a method section are on one line each. -/
theorem Method.oneLine_of_mem_lines (locals : List String) {m : Method} (index : Nat)
    (h : ∀ s ∈ m.texts, OneLine s) : ∀ line ∈ m.lines ⟨locals, settings⟩ index, OneLine line := by
  obtain ⟨hname, hparameters⟩ := List.forall_mem_cons.mp h
  have hone : ∀ q ∈ m.request ++ m.response, ∀ s ∈ q.texts, OneLine s :=
    fun q hq s hs => hparameters s (List.mem_flatMap.mpr ⟨q, hq, hs⟩)
  obtain ⟨hrequest, hresponse⟩ := List.forall_mem_append.mp hone
  have hheading : OneLine ("# (" ++ toString index ++ ") " ++ m.name.plain) := by
    simp only [oneLine_append]
    exact ⟨⟨⟨by decide, Text.oneLine_toString index⟩, by decide⟩, hname⟩
  have hinputs : ∀ line ∈ stubLines settings (m.name.plain ++ "Input")
      (m.request.map (·.requestField ⟨locals, settings⟩)), OneLine line := by
    refine oneLine_of_mem_stubLines hsettings (oneLine_append.mpr ⟨hname, by decide⟩) ?_
    exact List.forall_mem_map.mpr fun q hq => (q.oneLine hsettings locals (hrequest q hq)).2.1
  have houtputs : ∀ line ∈ stubLines settings (m.name.plain ++ "Output")
      (m.response.map (·.responseField ⟨locals, settings⟩)), OneLine line := by
    refine oneLine_of_mem_stubLines hsettings (oneLine_append.mpr ⟨hname, by decide⟩) ?_
    exact List.forall_mem_map.mpr fun q hq => (q.oneLine hsettings locals (hresponse q hq)).2.2
  have hrequests := oneLine_of_mem_tableLines hsettings locals (show OneLine noRequest by decide)
    hrequest
  have hresponses := oneLine_of_mem_tableLines hsettings locals (show OneLine noResponse by decide)
    hresponse
  simp only [lines, List.forall_mem_cons, List.forall_mem_append]
  exact ⟨hheading, by decide, by decide, ⟨⟨⟨hrequests, hinputs⟩, by decide, by decide, by simp⟩,
    hresponses⟩, houtputs⟩

/-- The lines of a record section are on one line each. -/
theorem Record.oneLine_of_mem_lines (locals : List String) {record : Record}
    (h : ∀ s ∈ record.texts, OneLine s) :
    ∀ line ∈ record.lines ⟨locals, settings⟩, OneLine line := by
  obtain ⟨hname, hothers⟩ := List.forall_mem_cons.mp h
  obtain ⟨hparent, hmembers⟩ := List.forall_mem_cons.mp hothers
  have hspelling : OneLine (record.parentSpelling settings).plain := by
    unfold parentSpelling
    split
    · exact hsettings .rootRecordType
    · exact hparent
  obtain ⟨hdisplay, -, hstub⟩ := Resolver.oneLine_resolveSpelling hsettings locals hspelling
  have hone : ∀ m ∈ record.members, OneLine m.name.plain ∧
      OneLine (m.shown ⟨locals, settings⟩).2.cell ∧
      OneLine (m.shown ⟨locals, settings⟩).2.stub := by
    intro m hm
    have htexts : ∀ s ∈ m.texts, OneLine s :=
      fun s hs => hmembers s (List.mem_flatMap.mpr ⟨m, hm, hs⟩)
    have htype := htexts m.type.plain (List.mem_cons_of_mem _ List.mem_cons_self)
    exact ⟨htexts m.name.plain List.mem_cons_self,
      (Resolver.oneLine_resolveSpelling hsettings locals htype).2⟩
  have hfields : ∀ field ∈ parentField ⟨locals, settings⟩ (record.parentShown ⟨locals, settings⟩) ++
      memberFields (record.members.map (·.shown ⟨locals, settings⟩)),
      OneLine field.name ∧ OneLine field.type := by
    refine List.forall_mem_append.mpr ⟨?_, fun field hfield => ?_⟩
    · unfold parentField
      split
      · exact List.forall_mem_singleton.mpr ⟨Text.oneLine_lower hstub, hstub⟩
      · exact List.forall_mem_nil _
    · obtain ⟨entry, hentry, rfl⟩ := List.mem_map.mp hfield
      obtain ⟨m, hm, rfl⟩ := List.mem_map.mp (List.mem_filter.mp hentry).1
      obtain ⟨hmember, -, htype⟩ := hone m hm
      exact ⟨hmember, htype⟩
  have hlines := oneLine_of_mem_stubLines hsettings hname hfields
  simp only [lines, List.forall_mem_cons, List.forall_mem_append, List.forall_mem_map,
    oneLine_append]
  refine ⟨⟨⟨⟨⟨by decide, hname⟩, by decide⟩, hdisplay⟩, by decide⟩, by decide, by decide, ?_,
    hlines⟩
  intro m hm
  obtain ⟨hmember, hcell, -⟩ := hone m hm
  simp only [Member.rowLine, oneLine_append]
  exact ⟨⟨⟨⟨by decide, hmember⟩, by decide⟩, hcell⟩, by decide⟩

/-- The lines of a document are on one line each. -/
theorem Protocol.oneLine_of_mem_lines {p : Protocol} (h : ∀ s ∈ p.texts, OneLine s) :
    ∀ line ∈ p.lines settings, OneLine line := by
  obtain ⟨hname, hothers⟩ := List.forall_mem_cons.mp h
  obtain ⟨hid, hparts⟩ := List.forall_mem_cons.mp hothers
  obtain ⟨hmethods, hrecords⟩ := List.forall_mem_append.mp hparts
  have hmethod : ∀ m ∈ p.methods, ∀ s ∈ m.texts, OneLine s :=
    fun m hm s hs => hmethods s (List.mem_flatMap.mpr ⟨m, hm, hs⟩)
  have hrecord : ∀ r ∈ p.records, ∀ s ∈ r.texts, OneLine s :=
    fun r hr s hs => hrecords s (List.mem_flatMap.mpr ⟨r, hr, hs⟩)
  have hheader : OneLine (p.header settings) := by
    have hbase := hsettings .wikiBase
    have hpage := hsettings .protocolsPage
    simp only [header, Settings.protocolsUrl, oneLine_append]
    exact ⟨⟨⟨⟨⟨⟨⟨⟨by decide, hpage⟩, by decide⟩, ⟨hbase, by decide⟩, hpage⟩, by decide⟩, hname⟩,
      by decide⟩, hid⟩, by decide⟩
  have hindex : ∀ line ∈ (p.methods.zipIdx 1).map fun numbered => numbered.1.indexLine numbered.2,
      OneLine line := by
    refine List.forall_mem_map.mpr fun numbered hnumbered => ?_
    have hfirst := hmethod _ (List.fst_mem_of_mem_zipIdx hnumbered) _ List.mem_cons_self
    have hnumber := Text.oneLine_toString numbered.2
    simp only [Method.indexLine, oneLine_append]
    exact ⟨⟨⟨⟨⟨⟨⟨⟨by decide, hnumber⟩, by decide⟩, hfirst⟩, by decide⟩, hnumber⟩, by decide⟩,
      Text.oneLine_lower hfirst⟩, by decide⟩
  have hsections : ∀ lines ∈ p.methodLines (p.sectionResolver settings) ++
      p.recordLines (p.sectionResolver settings), ∀ line ∈ lines, OneLine line := by
    refine List.forall_mem_append.mpr ⟨?_, ?_⟩
    · refine List.forall_mem_map.mpr fun numbered hnumbered => ?_
      exact Method.oneLine_of_mem_lines hsettings _ _
        (hmethod _ (List.fst_mem_of_mem_zipIdx hnumbered))
    · unfold recordLines
      split
      · exact List.forall_mem_nil _
      · refine List.forall_mem_cons.mpr ⟨by decide, List.forall_mem_map.mpr fun r hr => ?_⟩
        exact Record.oneLine_of_mem_lines hsettings _ (hrecord r hr)
  simp only [lines, List.forall_mem_cons, List.forall_mem_append]
  refine ⟨hheader, by decide, by decide, by decide, hindex, fun line hline => ?_⟩
  obtain ⟨lines, hlines, hmem⟩ := List.mem_flatMap.mp hline
  rcases List.mem_cons.mp hmem with rfl | hinside
  · decide
  · exact hsections lines hlines line hinside

end OneLine

/-! ## Fences -/

/-- Whether a line starts like a fence. -/
def isFence (line : String) : Bool :=
  fence.toList.isPrefixOf line.toList

/-- A line that starts with another sign is no fence. -/
theorem isFence_of_head? {line : String} {c : Char} (h : line.toList.head? = some c)
    (hc : c ≠ '\x60') : isFence line = false := by
  obtain ⟨cs, hline⟩ := List.head?_eq_some_iff.mp h
  have hfence : fence.toList = ['\x60', '\x60', '\x60'] := rfl
  rw [isFence, hline, hfence]
  simp [List.isPrefixOf, Ne.symm hc]

/-- The opening and the closing fence of a stub. -/
def stubFences (settings : Settings) : List String :=
  [fence ++ settings.stubLanguage, fence]

/-- The fences of a stub are those around it, unless its attribute line looks like one. -/
theorem filter_stubLines {settings : Settings} (h : isFence settings.stubAttributes = false)
    (name : String) (fields : List StubField) :
    (stubLines settings name fields).filter isFence = stubFences settings := by
  have hopening : isFence (fence ++ settings.stubLanguage) = true := by
    rw [isFence, String.toList_append]
    exact List.isPrefixOf_iff_prefix.mpr (List.prefix_append _ _)
  have hstruct : isFence ("pub struct " ++ name ++ " \x7b") = false :=
    isFence_of_head? (c := 'p') (by simp) (by decide)
  have hfields : (fields.map StubField.line).filter isFence = [] := by
    refine List.filter_eq_nil_iff.mpr (List.forall_mem_map.mpr fun field _ => ?_)
    have hfield : isFence field.line = false :=
      isFence_of_head? (c := ' ') (by simp [StubField.line]) (by decide)
    exact Bool.eq_false_iff.mp hfield
  have hclosing : ["\x7d", fence].filter isFence = [fence] := by decide
  rw [stubLines, List.filter_cons_of_pos hopening, List.filter_cons_of_neg (Bool.eq_false_iff.mp h),
    List.filter_cons_of_neg (Bool.eq_false_iff.mp hstruct), List.filter_append, hfields, hclosing]
  rfl

section Fences

variable {r : Resolver}

/-- The lines of a table are no fences. -/
theorem Method.filter_tableLines {notice : String} (hnotice : isFence notice = false)
    (parameters : List Parameter) :
    (tableLines notice (parameters.map (·.rowLine r))).filter isFence = [] := by
  have hrows : (parameters.map (·.rowLine r)).filter isFence = [] := by
    refine List.filter_eq_nil_iff.mpr (List.forall_mem_map.mpr fun q _ => ?_)
    have hrow : isFence (q.rowLine r) = false :=
      isFence_of_head? (c := '|') (by simp [Parameter.rowLine]) (by decide)
    exact Bool.eq_false_iff.mp hrow
  unfold tableLines
  split
  · exact List.filter_cons_of_neg (Bool.eq_false_iff.mp hnotice)
  · rw [List.filter_cons_of_neg (by decide), List.filter_cons_of_neg (by decide), hrows]

variable (h : isFence r.settings.stubAttributes = false)
include h

/-- The fences of a method section are those of its two stubs. -/
theorem Method.filter_lines (m : Method) (index : Nat) :
    (m.lines r index).filter isFence = stubFences r.settings ++ stubFences r.settings := by
  have hheading : isFence ("# (" ++ toString index ++ ") " ++ m.name.plain) = false :=
    isFence_of_head? (c := '#') (by simp) (by decide)
  have hbetween : ["", "## Response"].filter isFence = [] := by decide
  rw [lines, List.filter_cons_of_neg (Bool.eq_false_iff.mp hheading),
    List.filter_cons_of_neg (by decide), List.filter_cons_of_neg (by decide)]
  simp only [List.filter_append, filter_stubLines h, hbetween,
    filter_tableLines (show isFence noRequest = false by decide),
    filter_tableLines (show isFence noResponse = false by decide), List.nil_append, List.append_nil]

/-- The fences of a record section are those of its stub. -/
theorem Record.filter_lines (record : Record) :
    (record.lines r).filter isFence = stubFences r.settings := by
  have hheading : isFence
      ("## " ++ record.name.plain ++ " (" ++ (record.parentShown r).display ++ ")") = false :=
    isFence_of_head? (c := '#') (by simp) (by decide)
  have hrows : (record.members.map (·.rowLine r)).filter isFence = [] := by
    refine List.filter_eq_nil_iff.mpr (List.forall_mem_map.mpr fun m _ => ?_)
    have hrow : isFence (m.rowLine r) = false :=
      isFence_of_head? (c := '|') (by simp [Member.rowLine]) (by decide)
    exact Bool.eq_false_iff.mp hrow
  rw [lines, List.filter_cons_of_neg (Bool.eq_false_iff.mp hheading),
    List.filter_cons_of_neg (by decide), List.filter_cons_of_neg (by decide), List.filter_append,
    hrows, filter_stubLines h]
  rfl

end Fences

/-- Parts that each come to the same come to as many copies of it. -/
theorem flatMap_eq_flatten_replicate {α β : Type} {items : List α} {f : α → List β} {part : List β}
    (h : ∀ item ∈ items, f item = part) :
    items.flatMap f = (List.replicate items.length part).flatten := by
  rw [List.flatMap_def, List.map_eq_replicate_iff.mpr h]

/-- The fences of a document are those of its stubs: two for each method and one for each record. -/
theorem Protocol.filter_lines {settings : Settings} (h : isFence settings.stubAttributes = false)
    (p : Protocol) : (p.lines settings).filter isFence =
      (List.replicate (2 * p.methods.length + p.records.length) (stubFences settings)).flatten := by
  have hheader : isFence (p.header settings) = false :=
    isFence_of_head? (c := '#') (by simp [header]) (by decide)
  have hindex : ((p.methods.zipIdx 1).map fun numbered =>
      numbered.1.indexLine numbered.2).filter isFence = [] := by
    refine List.filter_eq_nil_iff.mpr (List.forall_mem_map.mpr fun numbered _ => ?_)
    have hline : isFence (numbered.1.indexLine numbered.2) = false :=
      isFence_of_head? (c := '|') (by simp [Method.indexLine]) (by decide)
    exact Bool.eq_false_iff.mp hline
  have hblank (sections : List (List String)) :
      (sections.flatMap ("" :: ·)).filter isFence = sections.flatMap (·.filter isFence) := by
    rw [List.filter_flatMap]
    rfl
  have hmethods : (p.methodLines (p.sectionResolver settings)).flatMap (·.filter isFence) =
      (List.replicate (2 * p.methods.length) (stubFences settings)).flatten := by
    have hpair : ∀ n, (List.replicate n (stubFences settings ++ stubFences settings)).flatten =
        (List.replicate (2 * n) (stubFences settings)).flatten := by
      intro n
      induction n with
      | zero => rfl
      | succ n ih => simp [List.replicate_succ, Nat.mul_succ, ih]
    rw [methodLines, List.flatMap_map, flatMap_eq_flatten_replicate
      fun numbered _ => Method.filter_lines h numbered.1 numbered.2, List.length_zipIdx]
    exact hpair _
  have hrecords : (p.recordLines (p.sectionResolver settings)).flatMap (·.filter isFence) =
      (List.replicate p.records.length (stubFences settings)).flatten := by
    unfold recordLines
    split
    · next hempty => simp [List.isEmpty_iff.mp hempty]
    · rw [List.flatMap_cons, List.flatMap_map,
        flatMap_eq_flatten_replicate fun r _ => Record.filter_lines h r]
      rfl
  rw [lines, List.filter_cons_of_neg (Bool.eq_false_iff.mp hheader),
    List.filter_cons_of_neg (by decide), List.filter_cons_of_neg (by decide),
    List.filter_cons_of_neg (by decide), List.filter_append, hindex, hblank, List.flatMap_append,
    hmethods, hrecords, List.nil_append, ← List.flatten_append, List.replicate_append_replicate]

/-! ## The last line -/

/-- The last of the lines, if there is one, is not empty. -/
def EndsFilled (lines : List String) : Prop :=
  lines.getLast? ≠ some ""

/-- Lines that end filled do so one after another. -/
theorem EndsFilled.append {lines more : List String} (h : EndsFilled lines)
    (hmore : EndsFilled more) : EndsFilled (lines ++ more) := by
  rw [EndsFilled, List.getLast?_append]
  cases hlast : more.getLast? with
  | none => exact h
  | some last =>
    rw [Option.some_or, ← hlast]
    exact hmore

/-- Lines that are gathered from items end filled if those of each item do. -/
theorem EndsFilled.flatMap {α : Type} {items : List α} {f : α → List String}
    (h : ∀ item ∈ items, EndsFilled (f item)) : EndsFilled (items.flatMap f) := by
  induction items with
  | nil => exact (Option.some_ne_none "").symm
  | cons item rest ih =>
    obtain ⟨hitem, hrest⟩ := List.forall_mem_cons.mp h
    rw [List.flatMap_cons]
    exact hitem.append (ih hrest)

/-- A section that ends with a fence does so behind a blank line. -/
theorem endsFilled_of_fence {lines : List String} (h : lines.getLast? = some fence) :
    EndsFilled ("" :: lines) := by
  rw [EndsFilled, List.getLast?_cons, h]
  decide

/-- The last line of a document is not empty. -/
theorem Protocol.endsFilled_lines (settings : Settings) (p : Protocol) :
    EndsFilled (p.lines settings) := by
  have hindex : EndsFilled ((p.methods.zipIdx 1).map fun numbered =>
      numbered.1.indexLine numbered.2) := by
    rw [List.map_eq_flatMap]
    refine EndsFilled.flatMap fun numbered _ hline => ?_
    have hempty := congrArg String.toList (Option.some.inj hline)
    simp [Method.indexLine] at hempty
  have hsections : ∀ lines ∈ p.methodLines (p.sectionResolver settings) ++
      p.recordLines (p.sectionResolver settings), EndsFilled ("" :: lines) := by
    refine List.forall_mem_append.mpr ⟨?_, ?_⟩
    · refine List.forall_mem_map.mpr fun numbered _ => endsFilled_of_fence ?_
      simp [Method.lines, stubLines, List.getLast?_cons]
    · unfold recordLines
      split
      · exact List.forall_mem_nil _
      · refine List.forall_mem_cons.mpr ⟨fun h => absurd (Option.some.inj h) (by decide), ?_⟩
        refine List.forall_mem_map.mpr fun record _ => endsFilled_of_fence ?_
        simp [Record.lines, stubLines, List.getLast?_cons]
  have hhead : EndsFilled [p.header settings, "", "| Method ID | Method Name |", "| --- | --- |"] :=
    fun h => absurd (show "| --- | --- |" = "" from Option.some.inj h) (by decide)
  exact hhead.append (hindex.append (EndsFilled.flatMap hsections))

/-- **A document has exactly the lines of its protocol.** Let the names and types of a protocol be
texts, let no text of the protocol or of the settings have a line feed, and let the attribute line
of stubs not look like a fence. Then the document exists and its lines are the ones listed; it does
not end with a line feed, and its fences are those of the stubs, each opened and then closed. -/
theorem document_lines (active settings : Settings) (p : Protocol) (htextual : p.Textual)
    (hsettings : ∀ field, OneLine (settings.get field)) (htexts : ∀ s ∈ p.texts, OneLine s)
    (hattributes : isFence settings.stubAttributes = false) :
    ∃ text, p.render active (some settings) = .ok text ∧ Text.lines text = p.lines settings ∧
      text.toList.getLast? ≠ some '\n' ∧
      (Text.lines text).filter isFence =
        (List.replicate (2 * p.methods.length + p.records.length)
          [fence ++ settings.stubLanguage, fence]).flatten := by
  obtain ⟨text, hrender⟩ := htextual.exists_render active settings
  have hlines : Text.lines text = p.lines settings := by
    rw [Protocol.text_eq hrender]
    exact Text.lines_intercalate (List.cons_ne_nil _ _)
      (Protocol.oneLine_of_mem_lines hsettings htexts)
  refine ⟨text, hrender, hlines, ?_, ?_⟩
  · apply Text.getLast?_ne_of_lines
    rw [hlines]
    exact p.endsFilled_lines settings
  · rw [hlines]
    exact Protocol.filter_lines hattributes p

/-- A protocol with a method that takes nothing and has an empty name, and a record without
members. -/
def sparseProtocol : Protocol :=
  ⟨.text "Auth", "Unknown ID",
    [⟨.text "Login", [⟨.text "User", .text "string", .integer 1, false⟩],
      [⟨.text "%retval%", .text "qlist<Token>", .integer 2, true⟩]⟩, ⟨.text "", [], []⟩],
    [⟨.text "Token", .text "", []⟩]⟩

/-- All lines of the document, with empty parts of every kind. -/
theorem sparseProtocol_lines :
    ∃ text, sparseProtocol.render {} (some { wikiBase := "wiki" }) = .ok text ∧
      Text.lines text =
        ["## [NEX-Protocols](wiki/NEX-Protocols) > Auth (Unknown ID)", "",
          "| Method ID | Method Name |", "| --- | --- |", "| 1 | [Login](#1-login) |",
          "| 2 | [](#2-) |", "", "# (1) Login", "", "## Request", "| Type | Name | Description |",
          "| --- | --- | --- |",
          "| NexString | User |  |", "```rust", "#[derive(Default, EndianRead, EndianWrite)]",
          "pub struct LoginInput \x7b", "    user: NexString,", "\x7d", "```",
          "", "## Response", "| Type | Name | Description |", "| --- | --- | --- |",
          "| [List](wiki/NEX-Common-Types#list)&#x3C;[Token](#token)&#x3E; | %retval% |  |",
          "```rust", "#[derive(Default, EndianRead, EndianWrite)]", "pub struct LoginOutput \x7b",
          "    val: NexList<Token>,", "\x7d", "```",
          "", "# (2) ", "", "## Request", "This method does not take any parameters", "```rust",
          "#[derive(Default, EndianRead, EndianWrite)]", "pub struct Input \x7b", "\x7d", "```",
          "", "## Response", "This method does not return anything", "```rust",
          "#[derive(Default, EndianRead, EndianWrite)]", "pub struct Output \x7b", "\x7d", "```",
          "", "# Types", "", "## Token ([Structure](wiki/NEX-Common-Types#structure))",
          "| Name | Type |", "| --- | --- |", "```rust",
          "#[derive(Default, EndianRead, EndianWrite)]",
          "pub struct Token \x7b", "\x7d", "```"] ∧
      text.toList.getLast? ≠ some '\n' ∧
      (Text.lines text).filter isFence = (List.replicate 5 ["```rust", "```"]).flatten := by
  have htextual : sparseProtocol.Textual := by
    refine ⟨⟨_, rfl⟩, List.forall_mem_cons.mpr ⟨⟨?_, ?_⟩, List.forall_mem_singleton.mpr ⟨?_, ?_⟩⟩,
      List.forall_mem_singleton.mpr ⟨⟨_, rfl⟩, Or.inr ⟨_, rfl⟩, List.forall_mem_nil _⟩⟩
    · exact List.forall_mem_singleton.mpr ⟨⟨_, rfl⟩, ⟨_, rfl⟩⟩
    · exact List.forall_mem_singleton.mpr ⟨⟨_, rfl⟩, ⟨_, rfl⟩⟩
    · exact List.forall_mem_nil _
    · exact List.forall_mem_nil _
  have hsettings : ∀ field, OneLine (Settings.get { wikiBase := "wiki" } field) := by
    intro field
    cases field <;> decide
  have htexts : ∀ s ∈ sparseProtocol.texts, OneLine s := by decide
  obtain ⟨text, hrender, hlines, hlast, hfences⟩ :=
    document_lines {} _ sparseProtocol htextual hsettings htexts (by decide)
  refine ⟨text, hrender, ?_, hlast, hfences⟩
  rw [hlines]
  decide +kernel

end ProtocolPages
