import ProtocolPages.Output.Generate
import ProtocolPages.Proofs.FileNames
import ProtocolPages.Proofs.Textual

/-!
# Collecting and writing in lockstep

One run collects the documents of a schema by name, another writes each of them as soon as it is
finished. They keep different books: the first looks for a repeated name among its documents, the
second in the list of all names so far. Writing to memory nevertheless comes to the same. Both runs
are followed side by side, one protocol at a time, until one of them fails, and then so does the
other.
-/

namespace ProtocolPages

/-- Whether the record announces the writing of a document. -/
def LogRecord.isWriting (r : LogRecord) : Bool :=
  r.level = .info ∧ "Writing protocol documentation to ".toList <+: r.message.toList

/-- The records that do not announce the writing of a document. -/
def Log.withoutWriting (log : Log) : Log :=
  log.filter (!·.isWriting)

@[simp] theorem Log.withoutWriting_append (log₁ log₂ : Log) :
    Log.withoutWriting (log₁ ++ log₂) = log₁.withoutWriting ++ log₂.withoutWriting :=
  List.filter_append ..

/-- Naming a protocol writes nothing. -/
@[simp] theorem withoutWriting_namingLog (settings : Settings) (counter : Int) (declared : Value) :
    (namingLog settings counter declared).withoutWriting = namingLog settings counter declared := by
  refine List.filter_eq_self.mpr fun r hr => ?_
  rcases List.mem_append.mp hr with hwarning | hfound
  · cases hvacant : declared.isVacant with
    | true =>
      rw [nameProtocol_of_nameless hvacant] at hwarning
      rw [List.mem_singleton.mp hwarning]
      rfl
    | false =>
      rw [nameProtocol_of_named hvacant] at hwarning
      exact absurd hwarning List.not_mem_nil
  · rw [List.mem_singleton.mp hfound]
    simp [LogRecord.isWriting]

/-- Dropping records writes nothing. -/
@[simp] theorem withoutWriting_dropPending (counter : Int) (records : List Record) :
    (dropPending counter records).log.withoutWriting = (dropPending counter records).log := by
  unfold dropPending
  split
  · rfl
  · split <;> rfl

/-- The announcement of a repeated name writes nothing. -/
@[simp] theorem withoutWriting_announceRepeat (name : Value) (seen : List Value) :
    (announceRepeat name seen).withoutWriting = announceRepeat name seen := by
  unfold announceRepeat
  split <;> rfl

/-- The record that announces the writing of a document at a path. -/
def writingRecord (path : Path) : LogRecord :=
  ⟨.info, "Writing protocol documentation to " ++ path.toText⟩

/-- Announcements of writing are what is left out. -/
@[simp] theorem withoutWriting_writingRecord (path : Path) :
    Log.withoutWriting [writingRecord path] = [] := by
  have hwriting : (writingRecord path).isWriting = true := by
    simp [LogRecord.isWriting, writingRecord]
  simp [Log.withoutWriting, hwriting]

/-- The path at which the document of a protocol with the given name is written. -/
def documentPath (settings : Settings) (folder : Path) (name : Value) : Path :=
  folder.join (.ofString (name.plain ++ settings.fileExtension))

/-- The documents by path. -/
def shelve (settings : Settings) (folder : Path) (documents : Documents) : Shelf :=
  documents.map fun document => (documentPath settings folder document.1, document.2)

/-- The name, with the extension behind it, is the name of a file. -/
structure Fileable (settings : Settings) (name : Value) : Prop where
  no_slash : '/' ∉ (name.plain ++ settings.fileExtension).toList
  ne_dot : name.plain ++ settings.fileExtension ≠ "."

/-- The name is a text that says something. -/
def Value.IsNaming (v : Value) : Prop :=
  ∃ s, v = .text s ∧ s ≠ ""

/-- Every protocol gets a name that says something. -/
theorem isNaming_protocolName (settings : Settings) (counter : Int) {declared : Value}
    (h : declared.IsTextOrNull) : (protocolName settings counter declared).IsNaming := by
  cases hvacant : declared.isVacant with
  | true =>
    rw [protocolName, nameProtocol_of_nameless hvacant]
    refine ⟨_, rfl, ?_⟩
    simp [syntheticName]
  | false =>
    rw [protocolName, nameProtocol_of_named hvacant]
    rcases h with rfl | ⟨s, rfl⟩
    · cases hvacant
    · refine ⟨s, rfl, ?_⟩
      rintro rfl
      cases hvacant

/-- A value is the same key as a text only if it is that text. -/
theorem sameKey_text_iff {v : Value} {s : String} : v.sameKey (.text s) = true ↔ v = .text s := by
  cases v <;> simp [Value.sameKey, Value.count?]

/-- The document of a protocol stands right inside the folder. -/
theorem documentPath_of_fileable {settings : Settings} {name : Value} (hnaming : name.IsNaming)
    (hfile : Fileable settings name) (folder : Path) :
    documentPath settings folder name = folder.file (name.plain ++ settings.fileExtension) := by
  obtain ⟨s, rfl, hs⟩ := hnaming
  have hempty : s ++ settings.fileExtension ≠ "" := by
    simp [hs]
  exact Path.join_ofString folder hfile.no_slash hempty hfile.ne_dot

/-- A text is known from the file name. -/
theorem Value.IsNaming.eq_of_plain {settings : Settings} {name₁ name₂ : Value}
    (h₁ : name₁.IsNaming) (h₂ : name₂.IsNaming)
    (h : name₁.plain ++ settings.fileExtension = name₂.plain ++ settings.fileExtension) :
    name₁ = name₂ := by
  obtain ⟨s, rfl, -⟩ := h₁
  obtain ⟨t, rfl, -⟩ := h₂
  exact congrArg Value.text ((String.append_left_inj _).mp h)

/-- Different names have different paths. -/
theorem documentPath_inj {settings : Settings} {folder : Path} {name₁ name₂ : Value}
    (hnaming₁ : name₁.IsNaming) (hnaming₂ : name₂.IsNaming) (hfile₁ : Fileable settings name₁)
    (hfile₂ : Fileable settings name₂)
    (h : documentPath settings folder name₁ = documentPath settings folder name₂) :
    name₁ = name₂ := by
  rw [documentPath_of_fileable hnaming₁ hfile₁, documentPath_of_fileable hnaming₂ hfile₂] at h
  have hlast := List.singleton_inj.mp (List.append_cancel_left (congrArg Path.parts h))
  exact hnaming₁.eq_of_plain hnaming₂ hlast

/-! ## One protocol -/

/-- Writing a document by name adds its name to the names and takes none away. -/
theorem mem_names_put {documents : Documents} {name : Value} {s text : String} :
    name ∈ (Ordered.put Value.sameKey (.text s) text documents).map Prod.fst ↔
      name ∈ documents.map Prod.fst ∨ name = .text s := by
  cases hholds : Ordered.holds Value.sameKey (.text s) documents with
  | true =>
    rw [Ordered.map_fst_put_of_holds hholds]
    obtain ⟨document, hmem, hsame⟩ := List.any_eq_true.mp hholds
    refine ⟨Or.inl, fun h => h.elim id ?_⟩
    rintro rfl
    exact List.mem_map.mpr ⟨document, hmem, sameKey_text_iff.mp hsame⟩
  | false =>
    rw [Ordered.put_of_not_holds hholds]
    simp

/-- A name is announced as repeated if it is among the names so far. -/
theorem announceRepeat_congr {s : String} {seen names : List Value}
    (h : .text s ∈ seen ↔ .text s ∈ names) :
    announceRepeat (.text s) seen = announceRepeat (.text s) names := by
  have hany (values : List Value) :
      values.any (·.sameKey (.text s)) = true ↔ .text s ∈ values := by
    simp [List.any_eq_true, sameKey_text_iff]
  have hsame : seen.any (·.sameKey (.text s)) = names.any (·.sameKey (.text s)) := by
    rw [Bool.eq_iff_iff, hany, hany, h]
  rw [announceRepeat, announceRepeat, hsame]

/-- Both books at the same place of a schema: the names seen are those of the documents, and the
shelf holds the documents by path if each of them has a path of its own. -/
structure InStep (settings : Settings) (folder : Path) (state : Publication Shelf)
    (documents : Documents) : Prop where
  naming : ∀ name ∈ documents.map Prod.fst, name.IsNaming
  seen_iff : ∀ s, .text s ∈ state.seen ↔ .text s ∈ documents.map Prod.fst
  store_eq : (∀ name ∈ documents.map Prod.fst, Fileable settings name) →
    state.store = shelve settings folder documents

section Step

variable {active settings : Settings} {folder : Path} {state : Publication Shelf}
  {documents : Documents}

/-- What the two runs make of a protocol that both announce alike: both finish its document, or both
fail for the same reason and keep what they have. -/
theorem publish_addDocument_cases (active settings : Settings) (folder : Path) {p : Protocol}
    (h : announceRepeat p.name state.seen = announceRepeat p.name (documents.map Prod.fst)) :
    (∃ text,
      publish active settings .memory folder state p =
        ⟨⟨Ordered.put (· == ·) (documentPath settings folder p.name) text state.store,
            state.seen ++ [p.name], state.paths ++ [documentPath settings folder p.name]⟩,
          announceRepeat p.name state.seen ++ [writingRecord (documentPath settings folder p.name)],
          none⟩ ∧
      addDocument active settings documents p =
        ⟨Ordered.put Value.sameKey p.name text documents, announceRepeat p.name state.seen,
          none⟩) ∨
    ∃ seen log failure, log.withoutWriting = log ∧
      publish active settings .memory folder state p =
        ⟨⟨state.store, seen, state.paths⟩, log, some failure⟩ ∧
      addDocument active settings documents p = ⟨documents, log, some failure⟩ := by
  unfold publish addDocument
  cases hkey : p.name.isKey with
  | false => exact Or.inr ⟨state.seen, [], _, rfl, rfl, rfl⟩
  | true =>
    cases hrender : p.render active (some settings) with
    | error misuse =>
      refine Or.inr ⟨state.seen ++ [p.name], announceRepeat p.name state.seen, .misuse misuse,
        withoutWriting_announceRepeat _ _, rfl, ?_⟩
      rw [h]
      rfl
    | ok text =>
      refine Or.inl ⟨text, rfl, ?_⟩
      rw [h]
      rfl

/-- Both runs stay in step at a protocol that they finish. -/
theorem InStep.put (h : InStep settings folder state documents) {name : Value}
    (hname : name.IsNaming) (text : String) (paths : List Path) :
    InStep settings folder
      ⟨Ordered.put (· == ·) (documentPath settings folder name) text state.store,
        state.seen ++ [name], paths⟩
      (Ordered.put Value.sameKey name text documents) := by
  obtain ⟨s, rfl, hs⟩ := hname
  refine ⟨fun name hmem => ?_, fun t => ?_, fun hfiles => ?_⟩
  · rcases mem_names_put.mp hmem with hbefore | rfl
    · exact h.naming name hbefore
    · exact ⟨s, rfl, hs⟩
  · rw [mem_names_put, List.mem_append, h.seen_iff t, List.mem_singleton]
  · have hbefore : ∀ name ∈ documents.map Prod.fst, Fileable settings name :=
      fun name hmem => hfiles name (mem_names_put.mpr (Or.inl hmem))
    have hnew : Fileable settings (.text s) := hfiles _ (mem_names_put.mpr (Or.inr rfl))
    rw [h.store_eq hbefore]
    refine (Ordered.map_put fun document hmem => ?_).symm
    have hold : document.1 ∈ documents.map Prod.fst := List.mem_map_of_mem hmem
    rw [Bool.eq_iff_iff, beq_iff_eq, sameKey_text_iff]
    constructor
    · intro hpath
      exact documentPath_inj (h.naming _ hold) ⟨s, rfl, hs⟩ (hbefore _ hold) hnew hpath
    · intro hname
      rw [hname]

end Step

/-! ## Whole runs -/

/-- Two runs end alike if they fail for the same reason or not at all, have numbered as many
protocols, and have reported the same apart from the writing. If each document has a path of its
own, the shelf holds the documents by path. -/
structure EndsAlike (settings : Settings) (folder : Path) (written : Walk (Publication Shelf))
    (built : Walk Documents) : Prop where
  failure_eq : written.failure = built.failure
  counter_eq : written.counter = built.counter
  log_eq : written.log.withoutWriting = built.log
  store_eq : (∀ name ∈ built.state.map Prod.fst, Fileable settings name) →
    written.state.store = shelve settings folder built.state

section Run

variable {active settings : Settings} {folder : Path}

/-- What was reported alike before may be put in front. -/
theorem EndsAlike.after {written : Walk (Publication Shelf)} {built : Walk Documents}
    (h : EndsAlike settings folder written built) {log₁ log₂ : Log}
    (hlog : log₁.withoutWriting = log₂) :
    EndsAlike settings folder (written.after log₁) (built.after log₂) where
  failure_eq := h.failure_eq
  counter_eq := h.counter_eq
  log_eq := by
    simp only [Walk.after, Log.withoutWriting_append, hlog, h.log_eq]
  store_eq := h.store_eq

/-- Runs that are in step end alike. -/
theorem InStep.endsAlike {schema : Schema} (hnames : ∀ p ∈ schema.protocols, p.name.IsTextOrNull)
    {state : Publication Shelf} {documents : Documents}
    (h : InStep settings folder state documents) (pending : List Record) (counter : Int) :
    EndsAlike settings folder
      ((Cursor.mk settings schema pending).walk (publish active settings .memory folder) counter
        state)
      ((Cursor.mk settings schema pending).walk (addDocument active settings) counter
        documents) := by
  induction schema generalizing state documents pending counter with
  | nil =>
    rw [Cursor.walk_nil, Cursor.walk_nil]
    exact ⟨rfl, rfl, withoutWriting_dropPending _ _, h.store_eq⟩
  | cons d rest ih =>
    cases d with
    | record r =>
      rw [Cursor.walk_record, Cursor.walk_record]
      exact ih hnames h _ _
    | protocol p =>
      obtain ⟨hfirst, hrest⟩ := List.forall_mem_cons.mp hnames
      have hnaming := isNaming_protocolName settings counter hfirst
      cases hmethods : toMethods (protocolName settings counter p.name) p.methods with
      | error e =>
        rw [Cursor.walk_protocol_of_error hmethods, Cursor.walk_protocol_of_error hmethods]
        exact ⟨rfl, rfl, withoutWriting_namingLog _ _ _, h.store_eq⟩
      | ok methods =>
        have hannounce : announceRepeat (protocolName settings counter p.name) state.seen =
            announceRepeat (protocolName settings counter p.name) (documents.map Prod.fst) := by
          obtain ⟨s, hs, -⟩ := hnaming
          rw [hs]
          exact announceRepeat_congr (h.seen_iff s)
        rcases publish_addDocument_cases active settings folder
          (p := ⟨protocolName settings counter p.name, settings.unknownProtocolId, methods,
            pending⟩)
          hannounce with ⟨text, hpublish, hadd⟩ | ⟨seen, log, failure, hlog, hpublish, hadd⟩
        · rw [Cursor.walk_protocol_of_ok hmethods (by rw [hpublish]),
            Cursor.walk_protocol_of_ok hmethods (by rw [hadd]), hpublish, hadd]
          refine (ih hrest (h.put hnaming text _) _ _).after ?_
          simp only [Log.withoutWriting_append, withoutWriting_namingLog,
            withoutWriting_announceRepeat, withoutWriting_writingRecord, List.append_nil]
        · rw [Cursor.walk_protocol_of_visit_failed hmethods (by rw [hpublish]),
            Cursor.walk_protocol_of_visit_failed hmethods (by rw [hadd]), hpublish, hadd]
          refine ⟨rfl, rfl, ?_, h.store_eq⟩
          simp only [Log.withoutWriting_append, withoutWriting_namingLog, hlog]

end Run

/-! ## Runs that end early -/

section Cut

variable {σ : Type} {visit : σ → Protocol → Visit σ} {settings : Settings}

/-- What is left when a walk ends at a state: the state, or what one more visit made of it before it
failed. -/
def LeftAt (visit : σ → Protocol → Visit σ) (state left : σ) : Prop :=
  left = state ∨ ∃ p failure, (visit state p).failure = some failure ∧ left = (visit state p).state

/-- The schema is cut behind the last protocol that a walk finishes. The walk up to the cut
succeeds, the whole walk leaves no more than that, and a walk that goes on to the next protocol is
no different from the whole one. -/
structure CutAtEnd (visit : σ → Protocol → Visit σ) (settings : Settings) (pending : List Record)
    (counter : Int) (state : σ) (schema before after : Schema) : Prop where
  eq : schema = before ++ after
  finished : before = [] ∨
    ((Cursor.mk settings before pending).walk visit counter state).failure = none
  left : LeftAt visit ((Cursor.mk settings before pending).walk visit counter state).state
    ((Cursor.mk settings schema pending).walk visit counter state).state
  more_eq : ∀ more rest, after = more ++ rest → (∃ p, .protocol p ∈ more) →
    (Cursor.mk settings (before ++ more) pending).walk visit counter state =
      (Cursor.mk settings schema pending).walk visit counter state

namespace CutAtEnd

variable {pending : List Record} {counter : Int} {state : σ} {schema before after : Schema}

/-- A record in front stays in front of the cut, unless nothing else is there. -/
theorem cons_record {r : Record}
    (h : CutAtEnd visit settings (pending ++ [r]) counter state schema before after) :
    ∃ before after,
      CutAtEnd visit settings pending counter state (.record r :: schema) before after := by
  obtain ⟨heq, hfinished, hleft, hmore⟩ := h
  rcases hfinished with rfl | hfinished
  · refine ⟨[], .record r :: after, by rw [heq]; rfl, Or.inl rfl, ?_, ?_⟩
    · rw [Cursor.walk_record]
      rw [Cursor.walk_nil] at hleft ⊢
      exact hleft
    · rintro (_ | ⟨d, more⟩) rest hcons ⟨p, hp⟩
      · exact absurd hp List.not_mem_nil
      · obtain ⟨rfl, hrest⟩ := List.cons.inj hcons
        have hlater : .protocol p ∈ more := (List.mem_cons.mp hp).resolve_left nofun
        rw [List.nil_append, Cursor.walk_record, Cursor.walk_record]
        exact hmore more rest hrest ⟨p, hlater⟩
  · refine ⟨.record r :: before, after, by rw [heq]; rfl, Or.inr ?_, ?_, ?_⟩
    · rw [Cursor.walk_record]
      exact hfinished
    · rw [Cursor.walk_record, Cursor.walk_record]
      exact hleft
    · intro more rest hrest hp
      rw [List.cons_append, Cursor.walk_record, Cursor.walk_record]
      exact hmore more rest hrest hp

/-- A protocol that is finished stays in front of the cut. -/
theorem cons_protocol {p : ProtocolDeclaration} {methods : List Method}
    (hmethods : toMethods (protocolName settings counter p.name) p.methods = .ok methods)
    (hvisit : (visit state ⟨protocolName settings counter p.name, settings.unknownProtocolId,
      methods, pending⟩).failure = none)
    (h : CutAtEnd visit settings [] (nameProtocol settings counter p.name).2.1
      (visit state ⟨protocolName settings counter p.name, settings.unknownProtocolId, methods,
        pending⟩).state schema before after) :
    CutAtEnd visit settings pending counter state (.protocol p :: schema) (.protocol p :: before)
      after := by
  obtain ⟨heq, hfinished, hleft, hmore⟩ := h
  refine ⟨by rw [heq]; rfl, Or.inr ?_, ?_, ?_⟩
  · rw [Cursor.walk_protocol_of_ok hmethods hvisit]
    rcases hfinished with rfl | hfinished
    · rw [Cursor.walk_nil]
      rfl
    · exact hfinished
  · rw [Cursor.walk_protocol_of_ok hmethods hvisit, Cursor.walk_protocol_of_ok hmethods hvisit]
    exact hleft
  · intro more rest hrest hp
    rw [List.cons_append, Cursor.walk_protocol_of_ok hmethods hvisit,
      Cursor.walk_protocol_of_ok hmethods hvisit, hmore more rest hrest hp]

/-- A protocol at which every walk ends alike is behind the cut. -/
theorem of_protocol {p : ProtocolDeclaration}
    (hsame : ∀ rest, (Cursor.mk settings (.protocol p :: rest) pending).walk visit counter state =
      (Cursor.mk settings (.protocol p :: schema) pending).walk visit counter state)
    (hleft : LeftAt visit state
      ((Cursor.mk settings (.protocol p :: schema) pending).walk visit counter state).state) :
    CutAtEnd visit settings pending counter state (.protocol p :: schema) []
      (.protocol p :: schema) := by
  refine ⟨rfl, Or.inl rfl, ?_, ?_⟩
  · rw [Cursor.walk_nil]
    exact hleft
  · rintro (_ | ⟨d, more⟩) rest hcons ⟨q, hq⟩
    · exact absurd hq List.not_mem_nil
    · obtain ⟨rfl, -⟩ := List.cons.inj hcons
      exact hsame more

end CutAtEnd

/-- Every walk finishes some protocols, and the schema can be cut behind them. -/
theorem Cursor.exists_cutAtEnd (visit : σ → Protocol → Visit σ) (settings : Settings)
    (schema : Schema) (pending : List Record) (counter : Int) (state : σ) :
    ∃ before after, CutAtEnd visit settings pending counter state schema before after := by
  induction schema generalizing pending counter state with
  | nil =>
    refine ⟨[], [], rfl, Or.inl rfl, Or.inl rfl, fun more rest hmore ⟨p, hp⟩ => ?_⟩
    obtain ⟨rfl, -⟩ := List.append_eq_nil_iff.mp hmore.symm
    exact absurd hp List.not_mem_nil
  | cons d schema ih =>
    cases d with
    | record r =>
      obtain ⟨before, after, hcut⟩ := ih (pending ++ [r]) counter state
      exact hcut.cons_record
    | protocol p =>
      cases hmethods : toMethods (protocolName settings counter p.name) p.methods with
      | error e =>
        refine ⟨[], _, .of_protocol (fun rest => ?_) (Or.inl ?_)⟩
        · rw [walk_protocol_of_error hmethods, walk_protocol_of_error hmethods]
        · rw [walk_protocol_of_error hmethods]
      | ok methods =>
        cases hvisit : (visit state ⟨protocolName settings counter p.name,
          settings.unknownProtocolId, methods, pending⟩).failure with
        | some failure =>
          refine ⟨[], _, .of_protocol (fun rest => ?_) (Or.inr ⟨_, failure, hvisit, ?_⟩)⟩
          · rw [walk_protocol_of_visit_failed hmethods hvisit,
              walk_protocol_of_visit_failed hmethods hvisit]
          · rw [walk_protocol_of_visit_failed hmethods hvisit]
        | none =>
          obtain ⟨before, after, hcut⟩ := ih [] (nameProtocol settings counter p.name).2.1 _
          exact ⟨_, _, hcut.cons_protocol hmethods hvisit⟩

/-- A walk that succeeds has been through a schema that is directed. -/
theorem Cursor.directed_of_walk {schema : Schema} {pending : List Record} {counter : Int}
    {state : σ}
    (h : ((Cursor.mk settings schema pending).walk visit counter state).failure = none) :
    schema.Directed := by
  induction schema generalizing pending counter state with
  | nil => simp [Schema.Directed, Schema.protocols]
  | cons d schema ih =>
    cases d with
    | record r =>
      rw [walk_record] at h
      exact Schema.directed_cons_record.mpr (ih h)
    | protocol p =>
      rcases toMethods_cases (protocolName settings counter p.name) p.methods with
        ⟨hdirected, hmethods⟩ | ⟨-, e, herror⟩
      · cases hvisit : (visit state ⟨protocolName settings counter p.name,
          settings.unknownProtocolId, p.methods.map MethodDeclaration.divided,
          pending⟩).failure with
        | some failure =>
          rw [walk_protocol_of_visit_failed hmethods hvisit] at h
          cases h
        | none =>
          rw [walk_protocol_of_ok hmethods hvisit] at h
          exact Schema.directed_cons_protocol.mpr ⟨hdirected, ih h⟩
      · rw [walk_protocol_of_error herror] at h
        cases h

end Cut

section Memory

variable {active settings : Settings} {folder : Path}

/-- What writing to memory makes of a protocol: its document is kept and its path noted, or the
store and the paths stay as they are. -/
theorem publish_memory_cases (active settings : Settings) (folder : Path)
    (state : Publication Shelf) (p : Protocol) :
    ((publish active settings .memory folder state p).failure = none ∧
      (publish active settings .memory folder state p).state.paths =
        state.paths ++ [documentPath settings folder p.name]) ∨
    ((publish active settings .memory folder state p).failure ≠ none ∧
      (publish active settings .memory folder state p).state.store = state.store) := by
  have hseen : announceRepeat p.name state.seen = announceRepeat p.name
      ((state.seen.map fun name => (name, "")).map Prod.fst) := by
    simp [Function.comp_def]
  rcases publish_addDocument_cases active settings folder hseen with
    ⟨text, hpublish, -⟩ | ⟨seen, log, failure, -, hpublish, -⟩
  · rw [hpublish]
    exact Or.inl ⟨rfl, rfl⟩
  · rw [hpublish]
    exact Or.inr ⟨nofun, rfl⟩

/-- Writing protocols to memory notes the path of each, in order. -/
theorem paths_of_visitAll {state : Publication Shelf} {found : List Protocol}
    (h : (visitAll (publish active settings .memory folder) state found).failure = none) :
    (visitAll (publish active settings .memory folder) state found).state.paths =
      state.paths ++ found.map (documentPath settings folder ·.name) := by
  induction found generalizing state with
  | nil => simp [visitAll]
  | cons p rest ih =>
    rcases publish_memory_cases active settings folder state p with ⟨hnone, hpaths⟩ | ⟨hsome, -⟩
    · simp only [visitAll, hnone] at h ⊢
      rw [ih h, hpaths, List.map_cons, List.append_assoc, List.singleton_append]
    · obtain ⟨failure, hfailure⟩ := Option.ne_none_iff_exists'.mp hsome
      simp [visitAll, hfailure] at h

/-- A run that writes to memory and succeeds notes a path for each protocol, in order. -/
theorem paths_of_generate {counter : Int} {schema : Schema}
    (h : (generate active (some settings) .memory [] folder counter schema).failure = none) :
    ∃ found, Segmented settings counter schema found ∧
      (generate active (some settings) .memory [] folder counter schema).state.paths =
        found.map (documentPath settings folder ·.name) := by
  obtain ⟨found, hfound, hwalk⟩ :=
    walk_append settings counter (Cursor.directed_of_walk h)
  obtain ⟨log, hlog⟩ := hwalk (publish active settings .memory folder) ⟨[], [], []⟩
  obtain ⟨hsucceeds, hfails⟩ := hlog []
  rw [List.append_nil] at hsucceeds hfails
  refine ⟨found, hfound, ?_⟩
  cases hvisits :
    (visitAll (publish active settings .memory folder) ⟨[], [], []⟩ found).failure with
  | some failure =>
    rw [generate_some, (hfails failure hvisits).1] at h
    cases h
  | none =>
    rw [generate_some, hsucceeds hvisits, Cursor.walk_nil]
    exact paths_of_visitAll hvisits

/-- A run that writes to memory leaves what a successful run over the protocols that it finished
leaves. -/
theorem generate_memory_cut (active settings : Settings) (folder : Path) (counter : Int)
    (schema : Schema) : ∃ before after, schema = before ++ after ∧
      (generate active (some settings) .memory [] folder counter before).failure = none ∧
      (generate active (some settings) .memory [] folder counter schema).state.store =
        (generate active (some settings) .memory [] folder counter before).state.store ∧
      ∀ more rest, after = more ++ rest → (∃ p, .protocol p ∈ more) →
        generate active (some settings) .memory [] folder counter (before ++ more) =
          generate active (some settings) .memory [] folder counter schema := by
  obtain ⟨before, after, heq, hfinished, hleft, hmore⟩ :=
    Cursor.exists_cutAtEnd (publish active settings .memory folder) settings schema [] counter
      ⟨[], [], []⟩
  refine ⟨before, after, heq, ?_, ?_, hmore⟩
  · rcases hfinished with rfl | hfinished
    · rw [generate_some, Cursor.walk_nil]
      rfl
    · exact hfinished
  · rcases hleft with hstate | ⟨p, failure, hfailure, hstate⟩
    · exact congrArg Publication.store hstate
    · refine (congrArg Publication.store hstate).trans ?_
      rcases publish_memory_cases active settings folder _ p with ⟨hnone, -⟩ | ⟨-, hstore⟩
      · rw [hnone] at hfailure
        cases hfailure
      · exact hstore

end Memory

/-- **Writing to memory agrees with collecting.** If the protocol names are texts or absent and each
document gets the name of a file, the two runs fail for the same reason or both succeed. The shelf
holds the collected documents by path, in order; the counters agree, and so do the logs apart from
the announcements of writing. After a success there is a path for each declared protocol, in order.
After a failure the shelf holds what a successful run over the finished protocols leaves: those in
front of a cut behind which the next protocol, if there is one, fails. -/
theorem generate_memory_agrees (active settings : Settings) (counter : Int) (folder : Path)
    (schema : Schema) (hnames : ∀ p ∈ schema.protocols, p.name.IsTextOrNull)
    (hfiles : ∀ name ∈ (buildDocuments active (some settings) counter schema).state.map Prod.fst,
      Fileable settings name) :
    let built := buildDocuments active (some settings) counter schema
    let written := generate active (some settings) .memory [] folder counter schema
    written.failure = built.failure ∧
    written.state.store = built.state.map (fun document =>
      (documentPath settings folder document.1, document.2)) ∧
    written.counter = built.counter ∧
    written.log.withoutWriting = built.log ∧
    (built.failure = none → ∃ found, Segmented settings counter schema found ∧
      written.state.paths = found.map (documentPath settings folder ·.name)) ∧
    (built.failure ≠ none → ∃ before after, schema = before ++ after ∧
      (generate active (some settings) .memory [] folder counter before).failure = none ∧
      written.state.store =
        (generate active (some settings) .memory [] folder counter before).state.store ∧
      ∀ more rest, after = more ++ rest → (∃ p, .protocol p ∈ more) →
        generate active (some settings) .memory [] folder counter (before ++ more) = written) := by
  intro built written
  have hempty : InStep settings folder ⟨[], [], []⟩ [] := ⟨nofun, by simp, fun _ => rfl⟩
  have halike : EndsAlike settings folder written built := hempty.endsAlike hnames [] counter
  refine ⟨halike.failure_eq, halike.store_eq hfiles, halike.counter_eq, halike.log_eq, ?_, ?_⟩
  · intro hnone
    rw [← halike.failure_eq] at hnone
    exact paths_of_generate hnone
  · intro _
    exact generate_memory_cut active settings folder counter schema

/-- A nameless protocol between two that share a name. The parameter of the last one has no
direction. -/
def repeatedSchema : Schema :=
  [.protocol ⟨.text "Auth", []⟩, .protocol ⟨.null, []⟩, .protocol ⟨.text "Auth", []⟩,
    .protocol ⟨.text "Match", [⟨.text "Join", [⟨.text "id", .text "uint32", .null, false⟩]⟩]⟩]

/-- Both runs fail at the last protocol and keep the documents of the others. -/
theorem repeated_runs_agree :
    (buildDocuments {} (some {}) 0 repeatedSchema).failure ≠ none ∧
    (generate {} (some {}) .memory [] ⟨.slash, ["docs"]⟩ 0 repeatedSchema).failure =
      (buildDocuments {} (some {}) 0 repeatedSchema).failure ∧
    (generate {} (some {}) .memory [] ⟨.slash, ["docs"]⟩ 0 repeatedSchema).state.store.map
        Prod.fst =
      [⟨.slash, ["docs", "Auth.md"]⟩, ⟨.slash, ["docs", "Unknown Protocol - 0.md"]⟩] := by
  have hnames : ∀ p ∈ repeatedSchema.protocols, p.name.IsTextOrNull := by
    intro p hp
    simp only [repeatedSchema, Schema.protocols, Declaration.protocol?, List.filterMap_cons,
      List.filterMap_nil, List.mem_cons, List.not_mem_nil, or_false] at hp
    rcases hp with rfl | rfl | rfl | rfl
    all_goals first | exact Or.inl rfl | exact Or.inr ⟨_, rfl⟩
  have hdivided (name : Value) : toMethods name [] = .ok [] := rfl
  have hbuilt : (buildDocuments {} (some {}) 0 repeatedSchema).state.map Prod.fst =
      [.text "Auth", .text "Unknown Protocol - 0"] ∧
      (buildDocuments {} (some {}) 0 repeatedSchema).failure ≠ none := by
    rw [buildDocuments, Cursor.start, repeatedSchema, Cursor.walk_protocol_of_ok (hdivided _) rfl,
      Cursor.walk_protocol_of_ok (hdivided _) rfl, Cursor.walk_protocol_of_ok (hdivided _) rfl,
      Cursor.walk_protocol_of_error rfl]
    exact ⟨rfl, Option.some_ne_none _⟩
  have hfiles : ∀ name ∈ (buildDocuments {} (some {}) 0 repeatedSchema).state.map Prod.fst,
      Fileable {} name := by
    intro name hname
    rw [hbuilt.1] at hname
    simp only [List.mem_cons, List.not_mem_nil, or_false] at hname
    rcases hname with rfl | rfl <;> exact ⟨by decide, by decide⟩
  obtain ⟨hfailure, hstore, -⟩ :=
    generate_memory_agrees {} {} 0 ⟨.slash, ["docs"]⟩ repeatedSchema hnames hfiles
  refine ⟨hbuilt.2, hfailure, ?_⟩
  have hpaths := congrArg (List.map (documentPath {} ⟨.slash, ["docs"]⟩)) hbuilt.1
  rw [hstore, List.map_map]
  rw [List.map_map] at hpaths
  exact hpaths

end ProtocolPages
