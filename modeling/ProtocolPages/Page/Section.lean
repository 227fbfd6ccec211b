import ProtocolPages.Page.Stub
import ProtocolPages.Protocol
import ProtocolPages.Reference

/-!
# Sections of a document

A method section shows the request and the response, each as a table of parameters and a stub. A
record section shows a table of members and a stub. In stubs the parameters are lower-cased, a
return value is called `val`, and padding members are left out.
-/

namespace ProtocolPages

/-- The documentation of one method or record. -/
structure Fragment where
  /-- The Markdown, stubs included. -/
  doc : String
  /-- The stubs on their own, in the order of the document. -/
  stubs : List String
  deriving DecidableEq, Repr

/-- All stubs of a fragment, separated by blank lines. -/
def Fragment.stub (f : Fragment) : String :=
  String.intercalate "\n\n" f.stubs

/-- The lower-cased text of a value, which has to be a text. -/
def lowerName : Value → Except Misuse String
  | .text s => .ok (Text.lower s)
  | _ => .error .notText

/-- The reference to the type that a value spells, which has to be a text. -/
def Resolver.resolveValue (r : Resolver) : Value → Except Misuse Reference
  | .text s => .ok (r.resolveSpelling s)
  | _ => .error .notText

/-- The resolver for a document with the given records. -/
def Resolver.ofRecords (active : Settings) (own : Option Settings) (records : List Record) :
    Except Misuse Resolver := do
  return .make active own (← localNames records)

namespace Method

/-- The notice in place of an empty request. -/
def noRequest : String := "This method does not take any parameters"

/-- The notice in place of an empty response. -/
def noResponse : String := "This method does not return anything"

/-- The field of a return value. -/
def returnField : String := "val"

/-- The field of a request parameter. -/
def inputField (r : Resolver) (p : Parameter) : Except Misuse StubField := do
  let name ← lowerName p.name
  let type ← r.resolveValue p.type
  return ⟨name, type.stub⟩

/-- The field of a response parameter. A parameter that bears the marker of return values is named
like one. -/
def outputField (settings : Settings) (r : Resolver) (p : Parameter) :
    Except Misuse StubField := do
  let name ← lowerName p.name
  let type ← r.resolveValue p.type
  let isReturn := p.isReturn || name = Text.lower settings.returnValueMarker
  return ⟨if isReturn then returnField else name, type.stub⟩

/-- The table row of a parameter; the description is left for the reader to fill in. -/
def parameterRow (r : Resolver) (p : Parameter) : Except Misuse (List String) := do
  let type ← r.resolveValue p.type
  return [type.cell, p.name.plain, ""]

/-- Add the table of parameters, or the notice if there are none. -/
def addTable (b : Builder) (rows : List (List String)) (notice : String) : Builder :=
  if rows.isEmpty then b.line notice
  else (b.tableHeader ["Type", "Name", "Description"]).rows rows

/-- The section of a method with the given number, in a document with the given records. The
settings that the method is rendered with are handed on to its resolver and its stubs. -/
def render (active : Settings) (own : Option Settings) (m : Method) (index : Int)
    (records : List Record) : Except Misuse Fragment := do
  let settings := Settings.choose active own
  let resolver ← Resolver.ofRecords active (some settings) records
  let inputs ← m.request.mapM (inputField resolver)
  let input := renderStub active (some settings) (m.name.plain ++ "Input") inputs
  let outputs ← m.response.mapM (outputField settings resolver)
  let output := renderStub active (some settings) (m.name.plain ++ "Output") outputs
  let requestRows ← m.request.mapM (parameterRow resolver)
  let responseRows ← m.response.mapM (parameterRow resolver)
  let heading := Builder.empty.append ("# (" ++ toString index ++ ") " ++ m.name.plain)
  let request := addTable ((heading.line "").line "## Request") requestRows noRequest
  let between := ((request.line input).line "").line "## Response"
  let response := addTable between responseRows noResponse
  return ⟨(response.line output).build, [input, output]⟩

end Method

namespace Record

/-- Whether a text occurs inside another one. -/
def occursIn (word : List Char) : List Char → Bool
  | [] => word.isEmpty
  | c :: rest => word.isPrefixOf (c :: rest) || occursIn word rest

/-- Whether a member with the given name only pads the record. -/
def isPadding (name : String) : Bool :=
  occursIn "dummy".toList name.toList

/-- The name and the type of a member. -/
def resolveMember (r : Resolver) (m : Member) : Except Misuse (String × Reference) := do
  let type ← r.resolveValue m.type
  match m.name with
  | .text name => return (name, type)
  | _ => .error .notJoinable

/-- The spelling of the parent of a record; a record that declares none has the root record type
as its parent. -/
def parentSpelling (settings : Settings) (r : Record) : Value :=
  if r.parent.isVacant then .text settings.rootRecordType else r.parent

/-- The field of the parent, if the parent is a record of the same document. -/
def parentField (resolver : Resolver) (parent : Reference) : List StubField :=
  if resolver.locals.contains parent.stub then [⟨Text.lower parent.stub, parent.stub⟩] else []

/-- The fields of the members that are more than padding. -/
def memberFields (members : List (String × Reference)) : List StubField :=
  (members.filter fun (name, _) => !isPadding name).map fun (name, type) => ⟨name, type.stub⟩

/-- The section of a record, in a document with the given records. The settings that the record is
rendered with are handed on to its resolver and its stub. -/
def render (active : Settings) (own : Option Settings) (r : Record) (records : List Record) :
    Except Misuse Fragment := do
  let settings := Settings.choose active own
  let resolver ← Resolver.ofRecords active (some settings) records
  let parent ← resolver.resolveValue (r.parentSpelling settings)
  let members ← r.members.mapM (resolveMember resolver)
  let stub := renderStub active (some settings) r.name.plain
    (parentField resolver parent ++ memberFields members)
  let heading := Builder.empty.append ("## " ++ r.name.plain ++ " (" ++ parent.display ++ ")")
  let table := (heading.tableHeader ["Name", "Type"]).rows
    (members.map fun (name, type) => [name, type.cell])
  return ⟨(table.line stub).build, [stub]⟩

end Record

end ProtocolPages
