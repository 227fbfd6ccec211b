import ProtocolPages.Page.Document
import ProtocolPages.Protocol.Extraction
import ProtocolPages.Storage.Disk

/-!
# Generating documents

A run extracts the protocols of a schema and renders one document for each. The documents are either
collected by name or handed to a writer as soon as they are finished, so those before a failure are
kept. A protocol name that repeats is announced, and the last document of that name counts.
-/

namespace ProtocolPages

/-! ## Writers -/

/-- A way to keep documents in a store. A writer is handed a finished document together with the
folder and the name that it should get; it changes its store and says where the document went. -/
structure Writer (σ : Type) where
  /-- Keep a document under a name in a folder. -/
  write : σ → Path → String → String → σ × Except Failure Path

/-- Documents kept in memory, by path and in the order of their first writing. -/
abbrev Shelf := List (Path × String)

/-- The writer that keeps documents in memory. A second document at a path replaces the first. -/
def Writer.memory : Writer Shelf where
  write shelf folder name content :=
    let path := folder.join (.ofString name)
    (Ordered.put (· == ·) path content shelf, .ok path)

/-- The writer that keeps documents as files. -/
def Writer.disk : Writer Disk where
  write := Disk.writeDocument

/-- The writer for files writes documents to the disk. -/
theorem Writer.disk_write : Writer.disk.write = Disk.writeDocument := rfl

/-! ## Runs -/

/-- The record that announces a repeated protocol name. -/
def repeatRecord (name : Value) : LogRecord :=
  ⟨.warning, "Protocol " ++ name.plain ++ " is declared more than once; the last one wins"⟩

/-- The announcement of a name that was seen before; nothing for a new name. -/
def announceRepeat (name : Value) (seen : List Value) : Log :=
  if seen.any (·.sameKey name) then [repeatRecord name] else []

/-- Documents by protocol name, in the order of the first protocol with each name. -/
abbrev Documents := List (Value × String)

/-- Render a protocol and keep its document by name. -/
def addDocument (active settings : Settings) (documents : Documents) (p : Protocol) :
    Visit Documents :=
  if p.name.isKey then
    let log := announceRepeat p.name (documents.map Prod.fst)
    match p.render active (some settings) with
    | .ok text => ⟨Ordered.put Value.sameKey p.name text documents, log, none⟩
    | .error misuse => ⟨documents, log, some (.misuse misuse)⟩
  else ⟨documents, [], some (.misuse .notKey)⟩

/-- Render every protocol of a schema, with settings of one's own or the active ones. -/
def buildDocuments (active : Settings) (own : Option Settings) (counter : Int) (schema : Schema) :
    Walk Documents :=
  let settings := Settings.choose active own
  (Cursor.start active (some settings) schema).walk (addDocument active settings) counter []

/-- The state of a run that writes documents. -/
structure Publication (σ : Type) where
  /-- The store that the documents are written to. -/
  store : σ
  /-- The protocol names so far. -/
  seen : List Value
  /-- The paths of the written documents, in order. -/
  paths : List Path

/-- Render a protocol and write its document into the folder. -/
def publish {σ : Type} (active settings : Settings) (writer : Writer σ) (folder : Path)
    (state : Publication σ) (p : Protocol) : Visit (Publication σ) :=
  if p.name.isKey then
    let log := announceRepeat p.name state.seen
    let seen := state.seen ++ [p.name]
    match p.render active (some settings) with
    | .ok text =>
      let name := p.name.plain ++ settings.fileExtension
      let (store, result) := writer.write state.store folder name text
      match result with
      | .ok path =>
        let written := ⟨.info, "Writing protocol documentation to " ++ path.toText⟩
        ⟨⟨store, seen, state.paths ++ [path]⟩, log ++ [written], none⟩
      | .error failure => ⟨⟨store, seen, state.paths⟩, log, some failure⟩
    | .error misuse => ⟨⟨state.store, seen, state.paths⟩, log, some (.misuse misuse)⟩
  else ⟨state, [], some (.misuse .notKey)⟩

/-- Write a document for every protocol of a schema into the folder, with settings of one's own or
the active ones. -/
def generate {σ : Type} (active : Settings) (own : Option Settings) (writer : Writer σ) (store : σ)
    (folder : Path) (counter : Int) (schema : Schema) : Walk (Publication σ) :=
  let settings := Settings.choose active own
  (Cursor.start active (some settings) schema).walk (publish active settings writer folder) counter
    ⟨store, [], []⟩

/-- With settings of one's own, a run publishes what a walk with these settings finds. -/
theorem generate_some {σ : Type} (active settings : Settings) (writer : Writer σ) (store : σ)
    (folder : Path) (counter : Int) (schema : Schema) :
    generate active (some settings) writer store folder counter schema =
      (Cursor.mk settings schema []).walk (publish active settings writer folder) counter
        ⟨store, [], []⟩ :=
  rfl

end ProtocolPages
