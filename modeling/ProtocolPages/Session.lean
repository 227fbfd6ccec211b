import ProtocolPages.Output.Generate
import ProtocolPages.Schema.Node
import ProtocolPages.Settings.Overlay

/-!
# Sessions

A session runs commands one after another. Between them it keeps the active settings, the settings
that entered contexts will restore, two counters of nameless protocols, the documents written so
far and the walks that are under way. A walk without settings of its own looks up the active ones
when it takes its first step.
-/

namespace ProtocolPages

/-- Which counter of nameless protocols a run uses. -/
inductive CounterChoice where
  /-- The counter of the session. -/
  | shared
  /-- The counter of the process. -/
  | process
  /-- A counter of the run's own, which starts at zero. -/
  | fresh
  deriving DecidableEq, Repr

/-- How far a walk has come. -/
inductive Stage where
  /-- No step has been taken. -/
  | unstarted
  /-- Steps have been taken up to the given place. -/
  | running (cursor : Cursor)
  /-- The walk has ended. -/
  | ended

/-- A walk through a schema that is advanced by commands. -/
structure LazyWalk where
  /-- The schema. -/
  schema : Schema
  /-- The settings of the walk, if it has its own. -/
  settings : Option Settings
  /-- Which counter it uses. -/
  choice : CounterChoice
  /-- The value of a counter of its own. -/
  own : Int
  /-- How far it has come. -/
  stage : Stage

/-- The state of a session. -/
structure Session where
  /-- The active settings. -/
  active : Settings
  /-- What the entered contexts will restore, innermost first. -/
  saved : List Settings
  /-- The counter of the session. -/
  shared : Int
  /-- The counter of the process. -/
  process : Int
  /-- The documents written so far. -/
  shelf : Shelf
  /-- The walks under way, by name. -/
  walks : List (String × LazyWalk)

/-- What a run works on: a schema, a counter, and settings of its own if it has them. -/
structure RunRequest where
  /-- Where the schema comes from. -/
  source : Schema.Source
  /-- Which counter the run uses. -/
  choice : CounterChoice
  /-- The fields of settings of its own, if given. -/
  settings : Option (List (String × Value))

/-- A command of a session. -/
inductive SessionCommand where
  /-- Make the given settings active. -/
  | setSettings (fields : List (String × Value))
  /-- Make the default settings active. -/
  | resetSettings
  /-- Enter a context with the given settings. -/
  | enterContext (fields : List (String × Value))
  /-- Leave the innermost context. -/
  | leaveContext
  /-- Leave the innermost context because something in it failed. -/
  | failContext
  /-- Show the active settings. -/
  | showSettings
  /-- Make up the next name from the counter of the session. -/
  | nextName (start : String)
  /-- Extract all protocols. -/
  | extract (request : RunRequest)
  /-- Render all documents. -/
  | build (request : RunRequest)
  /-- Write all documents into a folder. -/
  | generate (request : RunRequest) (folder : String)
  /-- Show the documents written so far. -/
  | showDocuments
  /-- Start a walk under the given name. -/
  | openWalk (id : String) (request : RunRequest)
  /-- Advance a walk. -/
  | advanceWalk (id : String)
  /-- Resolve a type. -/
  | resolve (raw : String) (locals : List String) (settings : Option (List (String × Value)))
  /-- Render a stub. -/
  | stub (name : String) (fields : List StubField) (settings : Option (List (String × Value)))
  /-- Render a method section, in a document with the given records. -/
  | method (m : Method) (index : Int) (settings : Option (List (String × Value)))
    (records : List Record := [])
  /-- Render a record section, in a document with the given records. -/
  | record (r : Record) (settings : Option (List (String × Value))) (records : List Record := [])
  /-- Render the document of a protocol. -/
  | document (p : Protocol) (settings : Option (List (String × Value)))

/-- What a command answers. -/
inductive SessionAnswer where
  /-- Nothing to show. -/
  | done
  /-- A context was left because something failed; the failure goes on unless it is swallowed. -/
  | failed (swallowed : Bool)
  /-- Settings. -/
  | settings (s : Settings)
  /-- A name. -/
  | name (s : String)
  /-- Extracted protocols. -/
  | protocols (ps : List Protocol)
  /-- Rendered documents. -/
  | documents (documents : Documents)
  /-- Paths of written documents. -/
  | paths (paths : List Path)
  /-- Written documents. -/
  | shelf (shelf : Shelf)
  /-- The next protocol of a walk. -/
  | protocol (p : Protocol)
  /-- The walk has ended. -/
  | exhausted
  /-- A resolved type. -/
  | reference (r : Reference)
  /-- A text. -/
  | text (s : String)
  /-- A rendered section. -/
  | fragment (f : Fragment)

/-- The outcome of a command. -/
structure SessionStep where
  /-- The session after the command. -/
  session : Session
  /-- What the command reported. -/
  log : Log
  /-- The answer, or why there is none. -/
  answer : Except Failure SessionAnswer

namespace Session

/-- A session before its first command. -/
def initial : Session :=
  ⟨{}, [], 0, 0, [], []⟩

/-- The value of a counter; one that is not kept starts at zero. -/
def counter (s : Session) : CounterChoice → Int
  | .shared => s.shared
  | .process => s.process
  | .fresh => 0

/-- Keep the value of a counter, if it is one that the session keeps. -/
def setCounter (s : Session) (choice : CounterChoice) (value : Int) : Session :=
  match choice with
  | .shared => { s with shared := value }
  | .process => { s with process := value }
  | .fresh => s

/-- The settings that a command brings, if it brings any. -/
def broughtSettings (fields : Option (List (String × Value))) :
    Except Failure (Option Settings) :=
  fields.mapM Settings.ofFields

/-- Leave the innermost context. -/
def leave (s : Session) : Session :=
  match s.saved with
  | previous :: outer => { s with active := previous, saved := outer }
  | [] => s

/-- Read the schema of a run, and the settings that it brings. -/
def prepare (request : RunRequest) : Log × Except Failure (Schema × Option Settings) :=
  let (log, schema) := Schema.load request.source
  (log, do return (← schema, ← broughtSettings request.settings))

/-- Run a walk over a schema and answer from the state it leaves. -/
def runWalk {σ : Type} (s : Session) (request : RunRequest)
    (walk : Option Settings → Int → Schema → Walk σ) (keep : Session → σ → Session)
    (answer : σ → SessionAnswer) : SessionStep :=
  match prepare request with
  | (log, .error failure) => ⟨s, log, .error failure⟩
  | (log, .ok (schema, own)) =>
    let result := walk own (s.counter request.choice) schema
    let after := keep (s.setCounter request.choice result.counter) result.state
    match result.failure with
    | some failure => ⟨after, log ++ result.log, .error failure⟩
    | none => ⟨after, log ++ result.log, .ok (answer result.state)⟩

/-- Put a walk under a name. -/
def putWalk (s : Session) (id : String) (w : LazyWalk) : Session :=
  { s with walks := Ordered.put (· == ·) id w s.walks }

/-- The place from which a walk goes on; its settings are settled by its first step. -/
def cursorOf (s : Session) (w : LazyWalk) : Option Cursor :=
  match w.stage with
  | .unstarted => some (Cursor.start s.active w.settings w.schema)
  | .running cursor => some cursor
  | .ended => none

/-- The counter that a walk goes on with. -/
def walkCounter (s : Session) (w : LazyWalk) : Int :=
  match w.choice with
  | .fresh => w.own
  | choice => s.counter choice

/-- Advance the walk with the given name. -/
def advanceWalk (s : Session) (id : String) (w : LazyWalk) : SessionStep :=
  match s.cursorOf w with
  | none => ⟨s, [], .ok .exhausted⟩
  | some cursor =>
    let step := cursor.next (s.walkCounter w)
    let after := s.setCounter w.choice step.counter
    let moved (stage : Stage) := after.putWalk id { w with own := step.counter, stage := stage }
    match step.pull with
    | .found protocol rest => ⟨moved (.running rest), step.log, .ok (.protocol protocol)⟩
    | .failed failure => ⟨moved .ended, step.log, .error failure⟩
    | .finished => ⟨moved .ended, step.log, .ok .exhausted⟩

/-- A command that only answers. -/
def reply (s : Session) (answer : Except Failure SessionAnswer) : SessionStep :=
  ⟨s, [], answer⟩

/-- Run a command. -/
def perform (s : Session) : SessionCommand → SessionStep
  | .setSettings fields =>
    match Settings.ofFields fields with
    | .ok settings => { s with active := settings }.reply (.ok .done)
    | .error failure => s.reply (.error failure)
  | .resetSettings => { s with active := {} }.reply (.ok .done)
  | .enterContext fields =>
    match Settings.ofFields fields with
    | .ok settings =>
      { s with active := settings, saved := s.active :: s.saved }.reply (.ok .done)
    | .error failure => s.reply (.error failure)
  | .leaveContext => s.leave.reply (.ok .done)
  | .failContext => s.leave.reply (.ok (.failed false))
  | .showSettings => s.reply (.ok (.settings s.active))
  | .nextName start =>
    { s with shared := s.shared + 1 }.reply (.ok (.name (syntheticName start s.shared)))
  | .extract request =>
    s.runWalk request (ProtocolPages.extract s.active) (fun s _ => s) .protocols
  | .build request => s.runWalk request (buildDocuments s.active) (fun s _ => s) .documents
  | .generate request folder =>
    s.runWalk request
      (fun own counter schema =>
        ProtocolPages.generate s.active own .memory s.shelf (.ofString folder) counter schema)
      (fun s state => { s with shelf := state.store }) (fun state => .paths state.paths)
  | .showDocuments => s.reply (.ok (.shelf s.shelf))
  | .openWalk id request =>
    match Schema.load request.source with
    | (log, .error failure) => ⟨s, log, .error failure⟩
    | (log, .ok schema) =>
      match broughtSettings request.settings with
      | .error failure => ⟨s, log, .error failure⟩
      | .ok settings =>
        ⟨s.putWalk id ⟨schema, settings, request.choice, 0, .unstarted⟩, log, .ok .done⟩
  | .advanceWalk id =>
    match s.walks.lookup id with
    | some w => s.advanceWalk id w
    | none => s.reply (.ok .exhausted)
  | .resolve raw locals fields =>
    s.reply do
      let own ← broughtSettings fields
      return .reference ((Resolver.make s.active own locals).resolveSpelling raw)
  | .stub name stubFields fields =>
    s.reply do return .text (renderStub s.active (← broughtSettings fields) name stubFields)
  | .method m index fields records =>
    s.reply do
      let own ← broughtSettings fields
      return .fragment (← (m.render s.active own index records).mapError .misuse)
  | .record r fields records =>
    s.reply do
      let own ← broughtSettings fields
      return .fragment (← (r.render s.active own records).mapError .misuse)
  | .document p fields =>
    s.reply do
      let own ← broughtSettings fields
      return .text (← (p.render s.active own).mapError .misuse)

end Session

end ProtocolPages
