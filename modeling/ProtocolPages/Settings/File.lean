import ProtocolPages.Settings.Overlay
import ProtocolPages.Storage.Disk
import ProtocolPages.Toml.Reader

/-!
# Settings files

The settings of a file stand in its section for this tool, or at its top level if it has none. What
is wrong with a file is reported with the path of the file. Of a file that cannot be read as
settings at all no more is reported than that; the detail that a reader may add is left out.
-/

namespace ProtocolPages

/-- A value of a settings file as an entry for settings. -/
def Toml.Value.toSetting : Toml.Value → Setting
  | .text s => .text s
  | v => .other v.kindName

namespace Settings

/-- The section of a settings file that belongs to this tool. -/
def sectionName : String := "ddldoc"

/-- The entries of a settings file that belong to this tool. -/
def sectionOf (document : Toml.Table) : Except SettingsDefect Toml.Table :=
  match document.lookup sectionName with
  | some (.table entries) => .ok entries
  | some _ => .error .notTable
  | none => .ok document

/-- The settings that a settings file gives, on top of the defaults. -/
def ofDocument (document : Toml.Table) : Except SettingsDefect Settings := do
  overlay {} ((← sectionOf document).map fun (key, v) => (key, v.toSetting))

/-- A defect of the settings file at the given path. -/
def fileFailure (path : Path) (defect : SettingsDefect) : Failure :=
  .settings ⟨defect, some path.toText⟩

/-- Read the settings file at a path. -/
def load (disk : Disk) (path : Path) : Except Failure Settings :=
  match disk.readFile path with
  | .error (.storage e) => .error (fileFailure path (.unreadable e.refusal))
  | .error failure => .error failure
  | .ok bytes =>
    match String.fromUTF8? bytes with
    | none => .error .notText
    | some text =>
      match Toml.read text with
      | .error .malformed => .error (fileFailure path .malformed)
      | .error .integerTooLong => .error .integerTooLong
      | .ok document => (ofDocument document).mapError (fileFailure path)

end Settings

end ProtocolPages
