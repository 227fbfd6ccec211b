/-!
# Settings

Everything in a generated document that is a matter of choice: where the wiki is, which words stand
in for what a tree does not say, and the dialect of the struct stubs.
-/

namespace ProtocolPages

/-- The settings of a run. -/
structure Settings where
  /-- The root address of the documentation wiki. -/
  wikiBase : String := "https://github.com/kinnay/NintendoClients/wiki"
  /-- The wiki page that lists all protocols. -/
  protocolsPage : String := "NEX-Protocols"
  /-- The wiki page that explains the common types. -/
  commonTypesPage : String := "NEX-Common-Types"
  /-- The parent of records that declare none. -/
  rootRecordType : String := "Structure"
  /-- The identifier printed next to every protocol name. -/
  unknownProtocolId : String := "Unknown ID"
  /-- The start of the name given to a protocol that has none. -/
  unknownProtocolPrefix : String := "Unknown Protocol"
  /-- The name that marks a parameter as a return value. -/
  returnValueMarker : String := "%retval%"
  /-- The language named on the code fences of stubs. -/
  stubLanguage : String := "rust"
  /-- The attribute line above every stub. -/
  stubAttributes : String := "#[derive(Default, EndianRead, EndianWrite)]"
  /-- The list type of stubs. -/
  listStubType : String := "NexList"
  /-- The holder type of stubs. -/
  dataHolderStubType : String := "DataHolder"
  /-- The extension of written documents. -/
  fileExtension : String := ".md"
  deriving DecidableEq, Repr, Inhabited

namespace Settings

/-- The settings that a component works with: those handed to it, or else the active ones. -/
def choose (active : Settings) (own : Option Settings) : Settings :=
  own.getD active

/-- Settings that are handed over count. -/
@[simp] theorem choose_some (active settings : Settings) :
    choose active (some settings) = settings := rfl

/-- Where none are handed over, the active settings count. -/
@[simp] theorem choose_none (active : Settings) : choose active none = active := rfl

/-- The address of the page that lists all protocols. -/
def protocolsUrl (s : Settings) : String :=
  s.wikiBase ++ "/" ++ s.protocolsPage

/-- The address of an entry on the page of common types. -/
def commonTypeUrl (s : Settings) (anchor : String) : String :=
  s.wikiBase ++ "/" ++ s.commonTypesPage ++ "#" ++ anchor

/-- The individual settings. -/
inductive Field where
  | wikiBase
  | protocolsPage
  | commonTypesPage
  | rootRecordType
  | unknownProtocolId
  | unknownProtocolPrefix
  | returnValueMarker
  | stubLanguage
  | stubAttributes
  | listStubType
  | dataHolderStubType
  | fileExtension
  deriving DecidableEq, Repr

namespace Field

/-- All settings, in the order of their declaration. -/
def all : List Field :=
  [wikiBase, protocolsPage, commonTypesPage, rootRecordType, unknownProtocolId,
   unknownProtocolPrefix, returnValueMarker, stubLanguage, stubAttributes, listStubType,
   dataHolderStubType, fileExtension]

/-- The name of a setting in a settings file. -/
def name : Field → String
  | wikiBase => "wiki_base"
  | protocolsPage => "protocols_page"
  | commonTypesPage => "common_types_page"
  | rootRecordType => "root_record_type"
  | unknownProtocolId => "unknown_protocol_id"
  | unknownProtocolPrefix => "unknown_protocol_prefix"
  | returnValueMarker => "return_value_marker"
  | stubLanguage => "stub_language"
  | stubAttributes => "stub_attributes"
  | listStubType => "list_stub_type"
  | dataHolderStubType => "data_holder_stub_type"
  | fileExtension => "file_extension"

/-- The setting with the given name, if there is one. -/
def ofName? (s : String) : Option Field :=
  all.find? (·.name == s)

end Field

/-- The text of a setting. -/
def get (s : Settings) : Field → String
  | .wikiBase => s.wikiBase
  | .protocolsPage => s.protocolsPage
  | .commonTypesPage => s.commonTypesPage
  | .rootRecordType => s.rootRecordType
  | .unknownProtocolId => s.unknownProtocolId
  | .unknownProtocolPrefix => s.unknownProtocolPrefix
  | .returnValueMarker => s.returnValueMarker
  | .stubLanguage => s.stubLanguage
  | .stubAttributes => s.stubAttributes
  | .listStubType => s.listStubType
  | .dataHolderStubType => s.dataHolderStubType
  | .fileExtension => s.fileExtension

/-- Change the text of a setting. -/
def set (s : Settings) (field : Field) (value : String) : Settings :=
  match field with
  | .wikiBase => { s with wikiBase := value }
  | .protocolsPage => { s with protocolsPage := value }
  | .commonTypesPage => { s with commonTypesPage := value }
  | .rootRecordType => { s with rootRecordType := value }
  | .unknownProtocolId => { s with unknownProtocolId := value }
  | .unknownProtocolPrefix => { s with unknownProtocolPrefix := value }
  | .returnValueMarker => { s with returnValueMarker := value }
  | .stubLanguage => { s with stubLanguage := value }
  | .stubAttributes => { s with stubAttributes := value }
  | .listStubType => { s with listStubType := value }
  | .dataHolderStubType => { s with dataHolderStubType := value }
  | .fileExtension => { s with fileExtension := value }

/-- Changing a setting changes that one and no other. -/
theorem get_set (s : Settings) (field other : Field) (value : String) :
    (s.set field value).get other = if other = field then value else s.get other := by
  cases field <;> cases other <;> rfl

/-- Settings are determined by their texts. -/
theorem ext_get {s t : Settings} (h : ∀ field, s.get field = t.get field) : s = t := by
  cases s
  cases t
  simp only [mk.injEq]
  exact ⟨h .wikiBase, h .protocolsPage, h .commonTypesPage, h .rootRecordType,
    h .unknownProtocolId, h .unknownProtocolPrefix, h .returnValueMarker, h .stubLanguage,
    h .stubAttributes, h .listStubType, h .dataHolderStubType, h .fileExtension⟩

end Settings

end ProtocolPages
