import ProtocolPages.Settings
import ProtocolPages.Text.Entity
import ProtocolPages.Text.Lowercase
import ProtocolPages.TypeExpr

/-!
# References to types

In a document a type appears as a link in tables and as a type of the stub language in stubs. A
record of the same document is linked within the page, whatever the glossary says of its name; a
glossary entry is linked to the wiki; every other name stands for itself.
-/

namespace ProtocolPages

/-- The anchor of a heading that is made of simple words. -/
def headingAnchor (words : List String) : String :=
  String.intercalate "-" (words.map Text.lower)

/-- How a type appears in a document. -/
structure Reference where
  /-- The Markdown shown for the type. -/
  display : String
  /-- Where the outermost type is linked to, if anywhere. -/
  link : Option String
  /-- The type of the stub language. -/
  stub : String
  deriving DecidableEq, Repr

/-- The Markdown of a type, written so that it can stand in a table cell. -/
def Reference.cell (r : Reference) : String :=
  Text.encodeEntities r.display

/-- What a type is resolved against. -/
structure Resolver where
  /-- The names of the records in the same document. -/
  locals : List String
  /-- The settings of the run. -/
  settings : Settings

namespace Resolver

/-- The resolver for records of the given names, with settings of its own or the active ones. -/
def make (active : Settings) (own : Option Settings) (locals : List String) : Resolver :=
  ⟨locals, .choose active own⟩

/-- The reference to a record of the same document. -/
def localReference (name : String) : Reference :=
  let anchor := "#" ++ headingAnchor [name]
  ⟨"[" ++ name ++ "](" ++ anchor ++ ")", some anchor, name⟩

/-- The reference to a glossary entry, or to a name that has none. -/
def outerReference (settings : Settings) (name : String) : Reference :=
  match Glossary.anchor? name with
  | some anchor =>
    let url := settings.commonTypeUrl anchor
    ⟨"[" ++ name ++ "](" ++ url ++ ")", some url, name⟩
  | none => ⟨name, none, name⟩

/-- The reference to a list of elements with the given reference. -/
def listReference (settings : Settings) (element : Reference) : Reference :=
  let url := settings.commonTypeUrl Glossary.listAnchor
  ⟨"[List](" ++ url ++ ")<" ++ element.display ++ ">", some url,
    settings.listStubType ++ "<" ++ element.stub ++ ">"⟩

/-- The reference to a name. -/
def nameReference (r : Resolver) (name : String) : Reference :=
  if r.locals.contains name then localReference name else outerReference r.settings name

/-- The reference to a type. A basic spelling that is also the name of a record means the record. -/
def resolve (r : Resolver) : TypeExpr → Reference
  | .named name => r.nameReference name
  | .basic name =>
    if r.locals.contains name then localReference name
    else r.nameReference (Glossary.rename name)
  | .holder inner raw => ⟨raw, none, r.settings.dataHolderStubType ++ "<" ++ inner ++ ">"⟩
  | .list _ inner => listReference r.settings (r.resolve inner)

/-- The reference to the type that a text spells. -/
def resolveSpelling (r : Resolver) (raw : String) : Reference :=
  r.resolve (TypeExpr.read raw)

end Resolver

end ProtocolPages
