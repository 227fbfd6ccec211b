import Mathlib.Data.List.Infix
import ProtocolPages.Proofs.LineStructure

/-!
# Reading a method section

What a method section says of its parameters can be read off its text. The reader is told nothing
of the method: it finds a table by the bars at the start of its rows and the fields of a stub by
their indentation, cuts a row at its bars and a field at its first colon and blank. Names and types
have to leave these marks to the section. Then the reader gets back every parameter in its place, in
the tables as in the stubs.
-/

namespace ProtocolPages

/-! ## Rows -/

namespace Text

/-- The characters without a blank at the front and without one at the end. -/
def trimBlank (cs : List Char) : List Char :=
  let rest := if cs.head? = some ' ' then cs.tail else cs
  if rest.getLast? = some ' ' then rest.dropLast else rest

/-- The columns of a table row: what stands between its bars, without a blank on each side. -/
def columns (line : String) : List String :=
  (line.toList.splitOn '|').tail.dropLast.map fun column => String.ofList (trimBlank column)

/-- A cell as it stands between two bars. -/
def spaced (cell : String) : List Char :=
  ' ' :: (cell.toList ++ [' '])

/-- The blanks around a cell are trimmed. -/
theorem trimBlank_spaced (cell : String) : trimBlank (spaced cell) = cell.toList := by
  simp [trimBlank, spaced]

/-- Cells behind a bar, each followed by a bar of its own. -/
theorem spaced_intercalate (cell : String) (rest : List String) :
    ' ' :: ((" | ".intercalate (cell :: rest)).toList ++ [' ', '|']) =
      ['|'].intercalate ((cell :: rest).map spaced ++ [[]]) := by
  induction rest generalizing cell with
  | nil => simp [spaced, List.intercalate]
  | cons next rest ih =>
    have hbar : (" | " : String).toList = [' ', '|', ' '] := rfl
    rw [String.intercalate_cons_cons, List.map_cons, List.cons_append,
      List.intercalate_cons_of_ne_nil (by simp), ← ih, spaced]
    simp [hbar]

/-- Cells without bars are the columns of their row. -/
theorem columns_rowText {cells : List String} (hne : cells ≠ [])
    (h : ∀ cell ∈ cells, '|' ∉ cell.toList) : columns (Builder.rowText cells) = cells := by
  obtain ⟨cell, rest, rfl⟩ := List.exists_cons_of_ne_nil hne
  have hchars : (Builder.rowText (cell :: rest)).toList =
      ['|'].intercalate ([] :: ((cell :: rest).map spaced ++ [[]])) := by
    rw [List.intercalate_cons_of_ne_nil (by simp), ← spaced_intercalate]
    simp [Builder.rowText]
  have hbars : ∀ column ∈ [] :: ((cell :: rest).map spaced ++ [[]]), '|' ∉ column := by
    refine List.forall_mem_cons.mpr ⟨by simp, List.forall_mem_append.mpr ⟨?_, by simp⟩⟩
    refine List.forall_mem_map.mpr fun c hc => ?_
    simpa [spaced] using h c hc
  rw [columns, hchars, List.splitOn_intercalate '|' hbars (by simp), List.tail_cons,
    List.dropLast_concat, List.map_map]
  simp [Function.comp_def, trimBlank_spaced]

/-- The type and the name that a row of three columns shows. -/
def readRow? (line : String) : Option (String × String) :=
  match columns line with
  | [type, name, _] => some (decodeEntities type, name)
  | _ => none

end Text

/-! ## Fields -/

/-- Cut at the first colon that a blank follows. -/
def Text.cutAtColon : List Char → Option (List Char × List Char)
  | [] => none
  | ':' :: ' ' :: rest => some ([], rest)
  | c :: rest => (cutAtColon rest).map fun parts => (c :: parts.1, parts.2)

/-- What has no colon with a blank behind it is cut off whole. -/
theorem Text.cutAtColon_append {name : List Char} (h : ¬[':', ' '] <:+: name) (type : List Char) :
    cutAtColon (name ++ ':' :: ' ' :: type) = some (name, type) := by
  induction name with
  | nil => rfl
  | cons c name ih =>
    have hrest : ¬[':', ' '] <:+: name :=
      fun hinside => h (hinside.trans (List.suffix_cons c name).isInfix)
    -- A colon at the end of the name is followed by the colon of the cut, not by its blank.
    have hno : ∀ rest, c = ':' → name ++ ':' :: ' ' :: type = ' ' :: rest → False := by
      rintro rest rfl hblank
      cases name with
      | nil => simp at hblank
      | cons d name =>
        obtain ⟨rfl, -⟩ := List.cons.inj hblank
        exact h ⟨[], name, rfl⟩
    rw [List.cons_append, cutAtColon.eq_3 _ _ hno, ih hrest]
    rfl

/-- The field that an indented line declares. -/
def StubField.ofLine? (line : String) : Option StubField :=
  (Text.cutAtColon (line.toList.drop 4).dropLast).map fun parts =>
    ⟨String.ofList parts.1, String.ofList parts.2⟩

/-- A field is read off its line. -/
theorem StubField.ofLine?_line {f : StubField} (h : ¬[':', ' '] <:+: f.name.toList) :
    ofLine? f.line = some f := by
  have hchars : f.line.toList.drop 4 =
      f.name.toList ++ ':' :: ' ' :: f.type.toList ++ [','] := by
    simp [line]
  rw [ofLine?, hchars, List.dropLast_concat, Text.cutAtColon_append h]
  simp

/-! ## Sections -/

/-- What one half of a method section says of its parameters. -/
structure PartReading where
  /-- The types and the names in the table. -/
  rows : List (String × String)
  /-- The fields in the stub. -/
  fields : List StubField
  deriving DecidableEq, Repr

/-- What a method section says of its parameters. -/
structure SectionReading where
  /-- The half of the request. -/
  request : PartReading
  /-- The half of the response. -/
  response : PartReading
  deriving DecidableEq, Repr

namespace SectionReading

/-- Whether a line is a row of a table. -/
def isRow (line : String) : Bool :=
  line.toList.head? == some '|'

/-- The rows of the table in front, without its head; a notice has none. -/
def tableRows (lines : List String) : List String :=
  (lines.takeWhile isRow).drop 2

/-- What follows the table in front, or the notice in its place. -/
def behindTable (lines : List String) : List String :=
  if (lines.takeWhile isRow).isEmpty then lines.tail else lines.dropWhile isRow

/-- Whether a line is indented like a field. -/
def isField (line : String) : Bool :=
  [' ', ' ', ' ', ' '].isPrefixOf line.toList

/-- The field lines of the stub in front, which come behind its three opening lines. -/
def fieldLines (lines : List String) : List String :=
  (lines.drop 3).takeWhile isField

/-- What follows the two closing lines of the stub in front. -/
def behindStub (lines : List String) : List String :=
  ((lines.drop 3).dropWhile isField).drop 2

/-- Read the table and the stub in front, and give back the lines that follow them. -/
def readPart? (lines : List String) : Option (PartReading × List String) := do
  let rows ← (tableRows lines).mapM Text.readRow?
  let fields ← (fieldLines (behindTable lines)).mapM StubField.ofLine?
  return (⟨rows, fields⟩, behindStub (behindTable lines))

/-- Read the text of a method section to its end. -/
def ofText? (text : String) : Option SectionReading := do
  let requestLines ← (Text.lines text).tail.dropPrefix? ["", "## Request"]
  let request ← readPart? requestLines
  let responseLines ← request.2.dropPrefix? ["", "## Response"]
  let response ← readPart? responseLines
  if response.2.isEmpty then return ⟨request.1, response.1⟩ else none

/-- The row of a parameter looks like a row. -/
theorem isRow_rowLine (r : Resolver) (q : Parameter) : isRow (q.rowLine r) = true := by
  simp [isRow, Parameter.rowLine]

/-- The line of a field looks like a field. -/
theorem isField_line (f : StubField) : isField f.line = true := by
  simp [isField, StubField.line]

/-- A table ends where its rows do. -/
theorem tableRows_append {notice : String} {rows rest : List String}
    (hnotice : isRow notice = false) (hrows : ∀ row ∈ rows, isRow row = true)
    (hrest : ∀ line ∈ rest.head?, isRow line = false) :
    tableRows (Method.tableLines notice rows ++ rest) = rows ∧
      behindTable (Method.tableLines notice rows ++ rest) = rest := by
  have hstop : rest.takeWhile isRow = [] ∧ rest.dropWhile isRow = rest := by
    cases rest with
    | nil => exact ⟨rfl, rfl⟩
    | cons line more => simp [hrest line rfl]
  cases rows with
  | nil => simp [Method.tableLines, tableRows, behindTable, hnotice]
  | cons row more =>
    have htable : ∀ line ∈ "| Type | Name | Description |" :: "| --- | --- | --- |" :: row :: more,
        isRow line = true :=
      List.forall_mem_cons.mpr ⟨by decide, List.forall_mem_cons.mpr ⟨by decide, hrows⟩⟩
    have hlines : Method.tableLines notice (row :: more) =
        "| Type | Name | Description |" :: "| --- | --- | --- |" :: row :: more := rfl
    rw [tableRows, behindTable, hlines, List.takeWhile_append_of_pos htable,
      List.dropWhile_append_of_pos htable, hstop.1, hstop.2]
    simp

/-- A stub ends behind its fields. -/
theorem fieldLines_append (settings : Settings) (name : String) (fields : List StubField)
    (rest : List String) :
    fieldLines (stubLines settings name fields ++ rest) = fields.map StubField.line ∧
      behindStub (stubLines settings name fields ++ rest) = rest := by
  have hfields : ∀ line ∈ fields.map StubField.line, isField line = true :=
    List.forall_mem_map.mpr fun f _ => isField_line f
  have hclosing : isField "\x7d" = false := by decide
  have hdrop : (stubLines settings name fields ++ rest).drop 3 =
      fields.map StubField.line ++ "\x7d" :: fence :: rest := by
    simp [stubLines]
  rw [fieldLines, behindStub, hdrop, List.takeWhile_append_of_pos hfields,
    List.dropWhile_append_of_pos hfields]
  simp [hclosing]

/-- Items that are read one by one are read all together. -/
theorem mapM_eq_some {α β γ : Type} {read : β → Option γ} {shown : α → β} {meant : α → γ}
    {items : List α} (h : ∀ item ∈ items, read (shown item) = some (meant item)) :
    (items.map shown).mapM read = some (items.map meant) := by
  induction items with
  | nil => rfl
  | cons item rest ih =>
    obtain ⟨hitem, hrest⟩ := List.forall_mem_cons.mp h
    rw [List.map_cons, List.mapM_cons, hitem, ih hrest]
    rfl

end SectionReading

/-! ## The parameters in the text -/

namespace Parameter

variable {r : Resolver} {q : Parameter}

/-- The name and the type of a parameter leave the bars to the table, and the name leaves the first
colon to the field. -/
structure LeavesMarks (r : Resolver) (q : Parameter) : Prop where
  name : '|' ∉ q.name.plain.toList
  type : '|' ∉ (r.resolveSpelling q.type.plain).cell.toList
  field : ¬[':', ' '] <:+: (Text.lower q.name.plain).toList

instance (r : Resolver) (q : Parameter) : Decidable (q.LeavesMarks r) :=
  decidable_of_iff ('|' ∉ q.name.plain.toList ∧
      '|' ∉ (r.resolveSpelling q.type.plain).cell.toList ∧
      ¬[':', ' '] <:+: (Text.lower q.name.plain).toList)
    ⟨fun h => ⟨h.1, h.2.1, h.2.2⟩, fun h => ⟨h.name, h.type, h.field⟩⟩

/-- What a table shows of a parameter: its type and its name. -/
def shown (r : Resolver) (q : Parameter) : String × String :=
  ((r.resolveSpelling q.type.plain).display, q.name.plain)

/-- A row shows the type and the name of its parameter. -/
theorem LeavesMarks.readRow?_rowLine (h : q.LeavesMarks r) :
    Text.readRow? (q.rowLine r) = some (q.shown r) := by
  have hcolumns : Text.columns (q.rowLine r) = q.rowCells r := by
    rw [← rowText_rowCells]
    refine Text.columns_rowText (by simp [rowCells]) ?_
    simpa [rowCells] using And.intro h.type h.name
  rw [Text.readRow?, hcolumns, rowCells]
  simp [Reference.cell, shown]

/-- The field of a request parameter is read off its line. -/
theorem LeavesMarks.ofLine?_requestField (h : q.LeavesMarks r) :
    StubField.ofLine? (q.requestField r).line = some (q.requestField r) :=
  StubField.ofLine?_line h.field

/-- The field of a response parameter is read off its line. -/
theorem LeavesMarks.ofLine?_responseField (h : q.LeavesMarks r) :
    StubField.ofLine? (q.responseField r).line = some (q.responseField r) := by
  apply StubField.ofLine?_line
  simp only [responseField]
  split
  · decide
  · exact h.field

end Parameter

/-- One half of a section is read as far as it goes. -/
theorem SectionReading.readPart?_append {r : Resolver} {notice name : String}
    {parameters : List Parameter} {field : Parameter → StubField}
    (hnotice : isRow notice = false) (hmarks : ∀ q ∈ parameters, q.LeavesMarks r)
    (hfield : ∀ q ∈ parameters, StubField.ofLine? (field q).line = some (field q))
    (rest : List String) :
    readPart? (Method.tableLines notice (parameters.map (·.rowLine r)) ++
        (stubLines r.settings name (parameters.map field) ++ rest)) =
      some (⟨parameters.map (·.shown r), parameters.map field⟩, rest) := by
  have hrows : ∀ row ∈ parameters.map (·.rowLine r), isRow row = true :=
    List.forall_mem_map.mpr fun q _ => isRow_rowLine r q
  have hfence : ∀ line ∈ (stubLines r.settings name (parameters.map field) ++ rest).head?,
      isRow line = false := by
    simp [stubLines, isRow, fence]
  obtain ⟨htable, hbehind⟩ := tableRows_append hnotice hrows hfence
  obtain ⟨hfields, hrest⟩ := fieldLines_append r.settings name (parameters.map field) rest
  have hreadRows : (parameters.map (·.rowLine r)).mapM Text.readRow? =
      some (parameters.map (·.shown r)) :=
    mapM_eq_some fun q hq => (hmarks q hq).readRow?_rowLine
  have hreadFields : ((parameters.map field).map StubField.line).mapM StubField.ofLine? =
      some (parameters.map field) := by
    rw [List.map_map]
    exact mapM_eq_some hfield
  rw [readPart?, htable, hbehind, hfields, hrest, hreadRows, hreadFields]
  rfl

namespace Method

/-- What the section of a method has to say: the type and the name of each parameter, and a field
for it that bears its name in lower case, or `val` for what is returned. -/
def reading (r : Resolver) (m : Method) : SectionReading where
  request :=
    ⟨m.request.map fun q => ((r.resolveSpelling q.type.plain).display, q.name.plain),
      m.request.map fun q => ⟨Text.lower q.name.plain, (r.resolveSpelling q.type.plain).stub⟩⟩
  response :=
    ⟨m.response.map fun q => ((r.resolveSpelling q.type.plain).display, q.name.plain),
      m.response.map fun q =>
        ⟨if q.isReturn = true ∨ Text.lower q.name.plain = Text.lower r.settings.returnValueMarker
          then "val" else Text.lower q.name.plain, (r.resolveSpelling q.type.plain).stub⟩⟩

/-- The halves of a section, parameter by parameter. -/
theorem reading_eq (r : Resolver) (m : Method) :
    m.reading r = ⟨⟨m.request.map (·.shown r), m.request.map (·.requestField r)⟩,
      ⟨m.response.map (·.shown r), m.response.map (·.responseField r)⟩⟩ := by
  simp [reading, Parameter.shown, Parameter.requestField, Parameter.responseField, returnField]

/-- The lines behind the heading, part by part. -/
theorem bodyLines_eq (r : Resolver) (m : Method) :
    m.bodyLines r = ["", "## Request"] ++ (tableLines noRequest (m.request.map (·.rowLine r)) ++
      (stubLines r.settings (m.name.plain ++ "Input") (m.request.map (·.requestField r)) ++
      (["", "## Response"] ++ (tableLines noResponse (m.response.map (·.rowLine r)) ++
      (stubLines r.settings (m.name.plain ++ "Output") (m.response.map (·.responseField r)) ++
        []))))) := by
  simp [bodyLines, lines]

/-- Whatever its heading, a section without further line feeds is read to its end. -/
theorem ofText?_section {r : Resolver} {m : Method} {heading : String}
    (hlines : ∀ line ∈ heading :: m.bodyLines r, OneLine line)
    (hmarks : ∀ q ∈ m.request ++ m.response, q.LeavesMarks r) :
    SectionReading.ofText? ("\n".intercalate (heading :: m.bodyLines r)) =
      some (m.reading r) := by
  obtain ⟨hrequest, hresponse⟩ := List.forall_mem_append.mp hmarks
  have hstart (start rest : List String) : (start ++ rest).dropPrefix? start = some rest :=
    List.dropPrefix?_eq_some_iff.mpr ⟨start, rfl, BEq.rfl⟩
  have hnoRequest : SectionReading.isRow noRequest = false := by decide
  have hnoResponse : SectionReading.isRow noResponse = false := by decide
  rw [SectionReading.ofText?, Text.lines_intercalate (List.cons_ne_nil _ _) hlines, List.tail_cons,
    bodyLines_eq, reading_eq]
  simp only [Option.bind_eq_bind, Option.bind_some, hstart,
    SectionReading.readPart?_append hnoRequest hrequest
      fun q hq => (hrequest q hq).ofLine?_requestField,
    SectionReading.readPart?_append hnoResponse hresponse
      fun q hq => (hresponse q hq).ofLine?_responseField]
  rfl

end Method

/-- Numbers bring no line feed. -/
theorem Text.oneLine_toString_int (n : Int) : OneLine (toString n) := by
  cases n with
  | ofNat m => exact oneLine_toString m
  | negSucc m =>
    have hminus : OneLine ("-" ++ toString (m + 1)) :=
      oneLine_append.mpr ⟨by decide, oneLine_toString (m + 1)⟩
    exact hminus

/-- **A method section can be read back.** Whatever the number of the method and whatever records it
is shown with, each table has a row with the type and the name of every parameter, and each stub has
a field for every parameter, all of them in the order of the method. Nothing may bring a line feed
of its own, a bar into a table, or a colon with a blank behind it into the name of a field. -/
theorem method_section_reads_back (active settings : Settings) (m : Method) (index : Int)
    (records : List Record) (hmethod : m.Textual)
    (hrecords : ∀ record ∈ records, record.name.IsText)
    (hsettings : ∀ field, OneLine (settings.get field)) (htexts : ∀ s ∈ m.texts, OneLine s)
    (hmarks : ∀ q ∈ m.request ++ m.response,
      q.LeavesMarks ⟨records.filterMap (·.name.text?), settings⟩) :
    ∃ fragment, m.render active (some settings) index records = .ok fragment ∧
      SectionReading.ofText? fragment.doc =
        some (m.reading ⟨records.filterMap (·.name.text?), settings⟩) := by
  obtain ⟨fragment, hfragment⟩ := hmethod.exists_render active settings index hrecords
  refine ⟨fragment, hfragment, ?_⟩
  rw [Method.section_eq hfragment]
  refine Method.ofText?_section (List.forall_mem_cons.mpr ⟨?_, ?_⟩) hmarks
  · have hname : OneLine m.name.plain := htexts _ List.mem_cons_self
    simp only [oneLine_append]
    exact ⟨⟨⟨by decide, Text.oneLine_toString_int index⟩, by decide⟩, hname⟩
  · intro line hline
    exact Method.oneLine_of_mem_lines hsettings _ 0 htexts line (List.mem_of_mem_tail hline)

/-- A method with a list of records in its request, a colon in a name, and two fields of its
response that are called `val`. -/
def joinMethod : Method :=
  ⟨.text "Join", [⟨.text "Gids", .text "qlist<Gathering>", .integer 1, false⟩,
    ⟨.text "Key:Hash", .text "string", .integer 1, false⟩],
    [⟨.text "Done", .text "bool", .null, true⟩,
      ⟨.text "%RETVAL%", .text "Gathering", .integer 2, false⟩]⟩

/-- Both fields that are called `val` are read back, and the colon stays in its name. -/
theorem joinMethod_reads_back :
    ∃ fragment, joinMethod.render {} (some { wikiBase := "wiki" }) (-2)
        [⟨.text "Gathering", .null, []⟩] = .ok fragment ∧
      SectionReading.ofText? fragment.doc = some
        ⟨⟨[("[List](wiki/NEX-Common-Types#list)<[Gathering](#gathering)>", "Gids"),
            ("NexString", "Key:Hash")],
          [⟨"gids", "NexList<Gathering>"⟩, ⟨"key:hash", "NexString"⟩]⟩,
        ⟨[("bool", "Done"), ("[Gathering](#gathering)", "%RETVAL%")],
          [⟨"val", "bool"⟩, ⟨"val", "Gathering"⟩]⟩⟩ := by
  have hmethod : joinMethod.Textual := by
    refine ⟨List.forall_mem_cons.mpr ⟨?_, List.forall_mem_singleton.mpr ?_⟩,
      List.forall_mem_cons.mpr ⟨?_, List.forall_mem_singleton.mpr ?_⟩⟩ <;>
      exact ⟨⟨_, rfl⟩, ⟨_, rfl⟩⟩
  have hsettings : ∀ field, OneLine (Settings.get { wikiBase := "wiki" } field) := by
    intro field
    cases field <;> decide
  obtain ⟨fragment, hrender, hread⟩ := method_section_reads_back {} _ joinMethod (-2)
    [⟨.text "Gathering", .null, []⟩] hmethod (List.forall_mem_singleton.mpr ⟨_, rfl⟩) hsettings
    (by decide) (by decide +kernel)
  refine ⟨fragment, hrender, ?_⟩
  rw [hread]
  decide +kernel

end ProtocolPages
