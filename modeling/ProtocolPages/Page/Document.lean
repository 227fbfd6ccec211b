import ProtocolPages.Page.Section

/-!
# Documents

The document of a protocol has a header, an index of its methods, a section for each method and,
if there are records, a section for each of them under a heading of their own. The parts are
separated by blank lines.
-/

namespace ProtocolPages.Protocol

/-- The first line of a document. -/
def header (settings : Settings) (p : Protocol) : String :=
  "## [" ++ settings.protocolsPage ++ "](" ++ settings.protocolsUrl ++ ") > " ++
    p.name.plain ++ " (" ++ p.id ++ ")"

/-- The index row of the method with the given number. -/
def indexRow (m : Method) (index : Nat) : List String :=
  let number := toString index
  [number, "[" ++ m.name.plain ++ "](#" ++ headingAnchor [number, m.name.plain] ++ ")"]

/-- The table that links every method section. -/
def methodIndex (methods : List Method) : String :=
  let head := (Builder.empty.append "| Method ID | Method Name |").line "| --- | --- |"
  (head.rows ((methods.zipIdx 1).map fun (m, index) => indexRow m index)).build

/-- The heading above the record sections. -/
def typesHeading : String := "# Types"

/-- The sections of the methods, which are handed the settings of the document. -/
def methodSections (active settings : Settings) (p : Protocol) : Except Misuse (List String) :=
  (p.methods.zipIdx 1).mapM fun (m, index) => do
    return (← m.render active (some settings) index p.records).doc

/-- The sections of the records under their heading, if there are any. They are handed the settings
of the document. -/
def recordSections (active settings : Settings) (p : Protocol) :
    Except Misuse (List String) := do
  if p.records.isEmpty then return []
  else
    let sections ← p.records.mapM fun r => do
      return (← r.render active (some settings) p.records).doc
    return typesHeading :: sections

/-- The document of a protocol, with settings of its own or the active ones. -/
def render (active : Settings) (own : Option Settings) (p : Protocol) : Except Misuse String := do
  let settings := Settings.choose active own
  let methods ← p.methodSections active settings
  let records ← p.recordSections active settings
  return String.intercalate "\n\n"
    ([p.header settings, methodIndex p.methods] ++ methods ++ records)

/-- The distinct texts among the names of the records. -/
def recordNames (p : Protocol) : List String :=
  (p.records.filterMap (·.name.text?)).eraseDups

end ProtocolPages.Protocol
