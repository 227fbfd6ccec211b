import ProtocolPages.Failure
import ProtocolPages.Settings

/-!
# Settings from named entries

Entries replace the defaults one by one. An entry whose name is no setting is passed over, whatever
it holds; an entry for a setting has to hold a text.
-/

namespace ProtocolPages

/-- What an entry holds, as far as settings are concerned. -/
inductive Setting where
  /-- A text. -/
  | text (s : String)
  /-- Something else, with the word for its kind. -/
  | other (kind : String)
  deriving DecidableEq, Repr

/-- A value as an entry for settings. -/
def Value.toSetting : Value → Setting
  | .text s => .text s
  | v => .other v.kindName

namespace Settings

/-- Replace settings by the entries, in order. The first entry for a setting that does not hold a
text is reported. -/
def overlay (s : Settings) : List (String × Setting) → Except SettingsDefect Settings
  | [] => .ok s
  | (key, setting) :: rest =>
    match Field.ofName? key, setting with
    | none, _ => s.overlay rest
    | some field, .text value => (s.set field value).overlay rest
    | some _, .other kind => .error (.notText key kind)

/-- The settings that the fields of an object give, on top of the defaults. -/
def ofFields (fields : List (String × Value)) : Except Failure Settings :=
  (overlay {} (fields.map fun (key, v) => (key, v.toSetting))).mapError
    fun defect => .settings ⟨defect, none⟩

/-- The names and texts of all settings. -/
def entries (s : Settings) : List (String × String) :=
  Field.all.map fun field => (field.name, s.get field)

end Settings

end ProtocolPages
