import ProtocolPages.Failure
import ProtocolPages.Json.Reader
import ProtocolPages.Log
import ProtocolPages.Schema

/-!
# Reading schemas from parse trees

A parse tree is an object whose `rootNamespace.elements` lists the declarations. The body of each
element says by its `_type` what it declares; kinds that the documentation does not need are
skipped and logged. Reading stops at the first node that does not have the expected shape and
reports its place in the tree.
-/

namespace ProtocolPages

/-- One step from a node to a node inside it. -/
inductive PlaceStep where
  /-- To the value of a key. -/
  | key (name : String)
  /-- To an item of a list, counted from zero. -/
  | item (index : Nat)
  deriving DecidableEq, Repr

/-- The way from the root of a tree to a node. -/
abbrev Place := List PlaceStep

/-- The text of a place: keys are separated by dots and indices stand in brackets. -/
def Place.text (place : Place) : String :=
  place.foldl (fun before step =>
    match step with
    | .key name => if before.isEmpty then name else before ++ "." ++ name
    | .item index => before ++ "[" ++ toString index ++ "]") ""

/-- A node does not have the expected shape. -/
structure NodeError where
  /-- What is wrong with the node. -/
  defect : Defect
  /-- Where the node is. -/
  place : Place
  deriving Repr

/-- The shape error for a node; the root has no path. -/
def NodeError.toShapeError (e : NodeError) : ShapeError :=
  ⟨e.defect, if e.place.isEmpty then none else some e.place.text⟩

namespace Node

/-- The keys that lead from a declaration to its name. -/
def nameKeys : List String := ["nameSpaceItem", "parseTreeItem1", "name", "value"]

/-- The keys that lead from a variable to the spelling of its type. -/
def typeKeys : List String := ["declarationUse", "name", "value"]

/-- Follow keys from a node at the given place. -/
def follow (node : Value) (place : Place) : List String → Except NodeError Value
  | [] => .ok node
  | key :: keys =>
    match node.field? key with
    | some inner => follow inner (place ++ [.key key]) keys
    | none => .error ⟨.missing key, place⟩

/-- The elements that a node lists under a key. -/
def elements (node : Value) (place : Place) (key : String) : Except NodeError (List Value) := do
  match ← follow node place [key, "elements"] with
  | .list items => return items
  | _ => .error ⟨.notList, place ++ [.key key, .key "elements"]⟩

/-- What a node says that it is. -/
def typeOf (node : Value) (place : Place) : Except NodeError Value :=
  match node with
  | .object fields =>
    match fields.lookup "_type" with
    | none | some .null => .error ⟨.untyped, place⟩
    | some type => .ok type
  | other => .error ⟨.notNode other.kindName, place⟩

/-- Apply a reader to every item of a list, counting from `index`, up to the first failure. -/
def readAll {α : Type} (read : Nat → Value → Except NodeError α) (index : Nat) :
    List Value → Except NodeError (List α)
  | [] => .ok []
  | item :: rest => do
    let first ← read index item
    let others ← readAll read (index + 1) rest
    return first :: others

/-- The place of the body of an element in a list of elements. -/
def bodyPlace (place : Place) (key : String) (index : Nat) : Place :=
  place ++ [.key key, .key "elements", .item index, .key "body"]

/-- Read a member of the record at the given place. -/
def readMember (place : Place) (index : Nat) (element : Value) : Except NodeError Member := do
  let here := bodyPlace place "classMembers" index
  let body ← follow element here ["body"]
  let name ← follow body here nameKeys
  let type ← follow body here typeKeys
  return ⟨name, type⟩

/-- Read the record whose body stands at the given place. -/
def readRecord (body : Value) (place : Place) : Except NodeError Record := do
  let name ← follow body place (["typeDeclaration", "declaration"] ++ nameKeys)
  let parent ← follow body place ["parentClassName", "value"]
  let items ← elements body place "classMembers"
  let members ← readAll (readMember place) 0 items
  return ⟨name, parent.orEmpty, members⟩

/-- Whether a node with the given type is a return value; there is no answer if it is no parameter
at all. -/
def isReturn? (type : Value) : Option Bool :=
  match type with
  | .text "DDLParameter" => some false
  | .text "DDLReturnValue" => some true
  | _ => none

/-- Read a parameter of the method at the given place. -/
def readParameter (place : Place) (index : Nat) (element : Value) :
    Except NodeError Parameter := do
  let here := bodyPlace place "parameters" index
  let body ← follow element here ["body"]
  let type ← typeOf body here
  match isReturn? type with
  | none => .error ⟨.notParameter type, here⟩
  | some isReturn =>
    let name ← follow body here ("variable" :: nameKeys)
    let spelling ← follow body here typeKeys
    return ⟨name, spelling, (body.field? "type").getD .null, isReturn⟩

/-- Read a method of the protocol at the given place. -/
def readMethod (place : Place) (index : Nat) (element : Value) :
    Except NodeError MethodDeclaration := do
  let here := bodyPlace place "methods" index
  let body ← follow element here ["body"]
  let name ← follow body here (["methodDeclaration", "declaration"] ++ nameKeys)
  let items ← elements body here "parameters"
  let parameters ← readAll (readParameter here) 0 items
  return ⟨name, parameters⟩

/-- Read the protocol whose body stands at the given place. -/
def readProtocol (body : Value) (place : Place) : Except NodeError ProtocolDeclaration := do
  let name ← follow body place ("declaration" :: nameKeys)
  let items ← elements body place "methods"
  let methods ← readAll (readMethod place) 0 items
  return ⟨name.orEmpty, methods⟩

/-- What an element at the top of a tree amounts to. -/
inductive Element where
  /-- A declaration. -/
  | declared (d : Declaration)
  /-- A kind that the documentation does not need. -/
  | skipped (type : Value)

/-- Read the element with the given index at the top of a tree. -/
def readElement (index : Nat) (element : Value) : Except NodeError Element := do
  let outer : Place := [.key "rootNamespace", .key "elements", .item index]
  let here := outer ++ [.key "body"]
  let body ← follow element outer ["body"]
  match ← typeOf body here with
  | .text "DDLClassDeclaration" => return .declared (.record (← readRecord body here))
  | .text "DDLProtocolDeclaration" => return .declared (.protocol (← readProtocol body here))
  | other => return .skipped other

/-- The record of a skipped element. -/
def skipRecord (index : Nat) (type : Value) : LogRecord :=
  ⟨.debug, "Skipping " ++ type.plain ++ " at " ++ (bodyPlace [] "rootNamespace" index).text⟩

/-- Read the elements at the top of a tree, counting from `index`. -/
def readElements (index : Nat) : List Value → Log × Except NodeError Schema
  | [] => ([], .ok [])
  | item :: rest =>
    match readElement index item with
    | .error e => ([], .error e)
    | .ok element =>
      let (log, others) := readElements (index + 1) rest
      match element with
      | .declared d => (log, others.map (d :: ·))
      | .skipped type => (skipRecord index type :: log, others)

end Node

namespace Schema

/-- Read a schema from a parse tree. -/
def ofTree (tree : Value) : Log × Except NodeError Schema :=
  match Node.elements tree [] "rootNamespace" with
  | .error e => ([], .error e)
  | .ok items => Node.readElements 0 items

/-- Read a schema from a parse tree, with the failure that a run reports. -/
def loadTree (tree : Value) : Log × Except Failure Schema :=
  let (log, result) := ofTree tree
  (log, result.mapError fun e => .shape e.toShapeError)

/-- Read a schema from the text of a parse tree, which has to hold an object. -/
def loadText (s : String) : Log × Except Failure Schema :=
  match Json.read s with
  | .error (.malformed complaint remaining) =>
    ([], .error (.shape ⟨.invalidJson complaint.message (Json.lineAt s remaining), none⟩))
  | .error .integerTooLong => ([], .error .integerTooLong)
  | .ok (.object fields) => loadTree (.object fields)
  | .ok other => ([], .error (.shape ⟨.notDocument other.kindName, none⟩))

/-- Where a schema comes from. -/
inductive Source where
  /-- A parse tree. -/
  | tree (value : Value)
  /-- The text of a parse tree. -/
  | text (s : String)

/-- Read a schema from its source. -/
def load : Source → Log × Except Failure Schema
  | .tree value => loadTree value
  | .text s => loadText s

end Schema

end ProtocolPages
