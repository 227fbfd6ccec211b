import ProtocolPages.Page.Builder
import ProtocolPages.Settings

/-!
# Struct stubs

A stub is a fenced code block that declares one struct: the fence with the stub language, the
attribute line, the opening line, one line for each field and the closing lines.
-/

namespace ProtocolPages

/-- A field of a stub. -/
structure StubField where
  /-- The name of the field. -/
  name : String
  /-- The type of the field in the stub language. -/
  type : String
  deriving DecidableEq, Repr

/-- The line that declares a field. -/
def StubField.line (f : StubField) : String :=
  "    " ++ f.name ++ ": " ++ f.type ++ ","

/-- The fence of a code block. -/
def fence : String := "\x60\x60\x60"

/-- The code block that declares a struct, with settings of its own or the active ones. -/
def renderStub (active : Settings) (own : Option Settings) (name : String)
    (fields : List StubField) : String :=
  let settings := Settings.choose active own
  let opened := (Builder.empty.append (fence ++ settings.stubLanguage)).line settings.stubAttributes
  let named := opened.line ("pub struct " ++ name ++ " \x7b")
  let filled := fields.foldl (fun b f => b.line f.line) named
  ((filled.line "\x7d").line fence).build

end ProtocolPages
