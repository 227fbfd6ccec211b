import ProtocolPages.Storage.Path
import ProtocolPages.Value.Literal

/-!
# Failures

Everything that can end a run early. A failure is a cause; its wording is a function of the cause.
Trees of the wrong shape, unknown directions, bad settings and refused file operations are expected
and carry a message. The remaining causes stem from values that were never checked.
-/

namespace ProtocolPages

/-- A message that starts with the place it is about, if one is given. -/
def located (place : Option String) (detail : String) : String :=
  match place with
  | some p => if p.isEmpty then detail else p ++ ": " ++ detail
  | none => detail

/-- What is wrong with a node of a parse tree. -/
inductive Defect where
  /-- The node is no object with the given key. -/
  | missing (key : String)
  /-- The node should be a list. -/
  | notList
  /-- The node should be an object and is of another kind. -/
  | notNode (kind : String)
  /-- The node does not say what it is. -/
  | untyped
  /-- The node should be a parameter and says that it is something else. -/
  | notParameter (type : Value)
  /-- The text of the tree breaks its format on the given line. -/
  | invalidJson (complaint : String) (line : Nat)
  /-- The text of the tree holds a value other than an object. -/
  | notDocument (kind : String)
  /-- A defect in the words of whoever found it. -/
  | stated (detail : String)
  deriving Repr

/-- The wording of a defect. -/
def Defect.detail : Defect → String
  | missing key => "missing '" ++ key ++ "'"
  | notList => "expected a list"
  | notNode kind => "expected a node object, got " ++ kind
  | untyped => "missing '_type' field"
  | notParameter type => "expected a parameter node, got " ++ type.literal
  | invalidJson complaint line =>
    "invalid JSON: " ++ complaint ++ " (line " ++ toString line ++ ")"
  | notDocument kind => "expected a JSON object, got " ++ kind
  | stated detail => detail

/-- A parse tree does not have the expected shape. -/
structure ShapeError where
  /-- What is wrong. -/
  defect : Defect
  /-- The place of the node in the tree; the root has none. -/
  path : Option String
  deriving Repr

/-- The message of a shape error. -/
def ShapeError.message (e : ShapeError) : String :=
  located e.path e.defect.detail

/-- A parameter is neither part of the request nor of the response. -/
structure DirectionError where
  /-- The tag that was found. -/
  tag : Value
  /-- The name of the method. -/
  method : Value
  /-- The name of the parameter. -/
  parameter : Value
  /-- The name of the protocol, if it is known. -/
  protocol : Option Value
  deriving Repr

/-- The method as the message names it, with its protocol in front when that says something. -/
def DirectionError.owner (e : DirectionError) : String :=
  match e.protocol with
  | some protocol =>
    if protocol.isVacant then e.method.plain else protocol.plain ++ "." ++ e.method.plain
  | none => e.method.plain

/-- The message of a direction error. -/
def DirectionError.message (e : DirectionError) : String :=
  "Unknown parameter direction " ++ e.tag.literal ++ " for parameter '" ++ e.parameter.plain ++
    "' of method '" ++ e.owner ++ "'"

/-- Why a file operation is refused. -/
inductive Refusal where
  /-- A name on the way does not exist. -/
  | missing
  /-- Something stands where a folder should be made. -/
  | exists
  /-- A name on the way is no folder. -/
  | notFolder
  /-- The end of the way is a folder. -/
  | isFolder
  /-- A name, or the whole path, is too long. -/
  | tooLong
  deriving DecidableEq, Repr

/-- The number of a refusal. -/
def Refusal.code : Refusal → Nat
  | missing => 2
  | .exists => 17
  | notFolder => 20
  | isFolder => 21
  | tooLong => 36

/-- The wording of a refusal. -/
def Refusal.reason : Refusal → String
  | missing => "No such file or directory"
  | .exists => "File exists"
  | notFolder => "Not a directory"
  | isFolder => "Is a directory"
  | tooLong => "File name too long"

/-- A file operation was refused. -/
structure StorageError where
  /-- Why it was refused. -/
  refusal : Refusal
  /-- The path that it was asked for. -/
  path : Path
  deriving DecidableEq, Repr

/-- The message of a refused file operation. -/
def StorageError.message (e : StorageError) : String :=
  "[Errno " ++ toString e.refusal.code ++ "] " ++ e.refusal.reason ++ ": " ++
    Text.quoted e.path.toText

/-- What is wrong with settings. -/
inductive SettingsDefect where
  /-- The file cannot be read. -/
  | unreadable (refusal : Refusal)
  /-- The file breaks its format. -/
  | malformed
  /-- The section for this tool is no table. -/
  | notTable
  /-- A setting is of another kind than text. -/
  | notText (key kind : String)
  /-- A defect in the words of whoever found it. -/
  | stated (detail : String)
  deriving Repr

/-- The wording of a defect in settings. -/
def SettingsDefect.detail : SettingsDefect → String
  | unreadable refusal => "cannot read configuration: " ++ refusal.reason
  | malformed => "invalid TOML"
  | notTable => "'ddldoc' must be a table"
  | notText key kind => "'" ++ key ++ "' must be a string, got " ++ kind
  | stated detail => detail

/-- The settings cannot be used. -/
structure SettingsError where
  /-- What is wrong. -/
  defect : SettingsDefect
  /-- The file that the settings come from, if there is one. -/
  source : Option String
  deriving Repr

/-- The message of a settings error. -/
def SettingsError.message (e : SettingsError) : String :=
  located e.source e.defect.detail

/-- A value is used in a way that its kind does not allow. -/
inductive Misuse where
  /-- A value other than a text is stripped or lower-cased. -/
  | notText
  /-- A value other than a text is joined with texts. -/
  | notJoinable
  /-- A list or an object is used as a key. -/
  | notKey
  deriving DecidableEq, Repr

/-- Why a run ends early. -/
inductive Failure where
  /-- A tree has the wrong shape. -/
  | shape (e : ShapeError)
  /-- A parameter has an unknown direction. -/
  | direction (e : DirectionError)
  /-- The settings cannot be used. -/
  | settings (e : SettingsError)
  /-- A file operation was refused. -/
  | storage (e : StorageError)
  /-- An unchecked value was used in a way that its kind does not allow. -/
  | misuse (m : Misuse)
  /-- A path holds the zero character. -/
  | zeroInPath
  /-- A document or a path holds a lone surrogate, so that it cannot be encoded. -/
  | unencodable
  /-- A file that should hold text does not. -/
  | notText
  /-- A whole number has too many digits. -/
  | integerTooLong
  /-- Documents should be written and there is no folder for them. -/
  | noFolder
  deriving Repr

namespace Failure

/-- The message of an expected failure; the other causes have none. -/
def message? : Failure → Option String
  | shape e => some e.message
  | direction e => some e.message
  | settings e => some e.message
  | storage e => some e.message
  | _ => none

end Failure

end ProtocolPages
