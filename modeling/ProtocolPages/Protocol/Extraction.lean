import ProtocolPages.Log
import ProtocolPages.Protocol
import ProtocolPages.Settings

/-!
# Extracting protocols

A schema is walked once from front to back. Records wait for the next protocol and are handed to
it. Each protocol is taken out on demand, so that a reader can stop in between, use several schemas
in turn and number nameless protocols from one counter. Records after the last protocol belong to
nothing and are dropped.
-/

namespace ProtocolPages

/-- A place in a schema between two protocols. -/
structure Cursor where
  /-- The settings of the run. -/
  settings : Settings
  /-- The declarations still to come. -/
  remaining : List Declaration
  /-- The records that wait for a protocol. -/
  pending : List Record

/-- The outcome of asking for the next protocol. -/
inductive Pull where
  /-- A protocol, and the place after it. -/
  | found (protocol : Protocol) (rest : Cursor)
  /-- The next protocol cannot be taken out. -/
  | failed (failure : Failure)
  /-- No protocol is left. -/
  | finished

/-- One advance through a schema. -/
structure Advance where
  /-- What was found. -/
  pull : Pull
  /-- The counter of nameless protocols after the advance. -/
  counter : Int
  /-- What the advance reported. -/
  log : Log

/-- The name given to a nameless protocol. -/
def syntheticName (start : String) (counter : Int) : String :=
  start ++ " - " ++ toString counter

/-- The name of a protocol, the counter after naming it, and what naming it reported. -/
def nameProtocol (settings : Settings) (counter : Int) (declared : Value) : Value × Int × Log :=
  if declared.isVacant then
    let name := syntheticName settings.unknownProtocolPrefix counter
    (.text name, counter + 1,
      [⟨.warning, "Could not determine real protocol name. Defaulting to " ++ name⟩])
  else (declared, counter, [])

/-- Take out a declared protocol, with the records that waited for it. -/
def extractProtocol (settings : Settings) (counter : Int) (records : List Record)
    (declared : ProtocolDeclaration) (rest : List Declaration) : Advance :=
  let (name, counter, log) := nameProtocol settings counter declared.name
  let log := log ++ [⟨.info, "Found NEX protocol: " ++ name.plain⟩]
  match toMethods name declared.methods with
  | .ok methods =>
    let protocol : Protocol := ⟨name, settings.unknownProtocolId, methods, records⟩
    ⟨.found protocol ⟨settings, rest, []⟩, counter, log⟩
  | .error e => ⟨.failed (.direction e), counter, log⟩

/-- Report the records after the last protocol. Their names are listed, so all have to be texts. -/
def dropPending (counter : Int) (records : List Record) : Advance :=
  if records.isEmpty then ⟨.finished, counter, []⟩
  else
    match records.mapM (·.name.text?) with
    | some names =>
      let message := "Dropping " ++ toString records.length ++
        " class declaration(s) after the last protocol: " ++ String.intercalate ", " names
      ⟨.finished, counter, [⟨.debug, message⟩]⟩
    | none => ⟨.failed (.misuse .notJoinable), counter, []⟩

/-- Advance to the next protocol of a schema, with the records that already wait for it. -/
def advance (settings : Settings) (counter : Int) (pending : List Record) : Schema → Advance
  | [] => dropPending counter pending
  | .record r :: rest => advance settings counter (pending ++ [r]) rest
  | .protocol p :: rest => extractProtocol settings counter pending p rest

namespace Cursor

/-- The place before the first protocol of a schema, with settings of one's own or the active
ones. -/
def start (active : Settings) (own : Option Settings) (schema : Schema) : Cursor :=
  ⟨.choose active own, schema, []⟩

/-- Settings of one's own go along. -/
@[simp] theorem start_some (active settings : Settings) (schema : Schema) :
    start active (some settings) schema = ⟨settings, schema, []⟩ :=
  rfl

/-- Advance to the next protocol. -/
def next (c : Cursor) (counter : Int) : Advance :=
  advance c.settings counter c.pending c.remaining

end Cursor

/-- Only a declared protocol can be found, and what remains comes after it. -/
theorem remaining_length_lt_of_advance {settings : Settings} {counter : Int}
    {pending : List Record} {schema : Schema} {protocol : Protocol} {rest : Cursor}
    (h : (advance settings counter pending schema).pull = .found protocol rest) :
    rest.remaining.length < schema.length := by
  induction schema generalizing pending with
  | nil =>
    simp only [advance, dropPending] at h
    split at h
    · exact nomatch h
    · split at h <;> exact nomatch h
  | cons d schema ih =>
    cases d with
    | record r => exact Nat.lt_succ_of_lt (ih h)
    | protocol p =>
      simp only [advance, extractProtocol] at h
      split at h
      · cases h
        exact Nat.lt_succ_self _
      · exact nomatch h

/-- What a visitor made of one protocol. -/
structure Visit (σ : Type) where
  /-- The state after the visit. -/
  state : σ
  /-- What the visit reported. -/
  log : Log
  /-- Why the visit failed, if it did. -/
  failure : Option Failure

/-- The outcome of a whole walk. -/
structure Walk (σ : Type) where
  /-- The state that the visits left. -/
  state : σ
  /-- The counter of nameless protocols after the walk. -/
  counter : Int
  /-- What the walk and its visits reported, in order. -/
  log : Log
  /-- Why the walk ended early, if it did. -/
  failure : Option Failure

/-- Visit every protocol from a place on, up to the first failure. -/
def Cursor.walk {σ : Type} (visit : σ → Protocol → Visit σ) (c : Cursor) (counter : Int)
    (state : σ) : Walk σ :=
  let step := c.next counter
  match hpull : step.pull with
  | .finished => ⟨state, step.counter, step.log, none⟩
  | .failed failure => ⟨state, step.counter, step.log, some failure⟩
  | .found protocol rest =>
    have : rest.remaining.length < c.remaining.length := remaining_length_lt_of_advance hpull
    let visited := visit state protocol
    match visited.failure with
    | some failure => ⟨visited.state, step.counter, step.log ++ visited.log, some failure⟩
    | none =>
      let later := rest.walk visit step.counter visited.state
      { later with log := step.log ++ visited.log ++ later.log }
termination_by c.remaining.length

/-- Keep every protocol that is visited. -/
def collect (found : List Protocol) (protocol : Protocol) : Visit (List Protocol) :=
  ⟨found ++ [protocol], [], none⟩

/-- Extract the protocols of a schema, up to the first failure. -/
def extract (active : Settings) (own : Option Settings) (counter : Int) (schema : Schema) :
    Walk (List Protocol) :=
  (Cursor.start active own schema).walk collect counter []

end ProtocolPages
