import ProtocolPages.Proofs.Contexts

/-!
# Settings of one's own

A component that is handed settings works with them, and one that is handed none works with the
active ones. Each component decides this for itself and hands the outcome to the components that it
calls. If one of them forgot to, the active settings would show in a line of some document. So the
statement is made for every component, from the resolver and the stubs to whole runs: under settings
of one's own no active settings show, and settings of one's own come to the same as active ones.
Sessions inherit this. There the active settings are moved past a command: a command that brings its
settings does the same under all others.
-/

namespace ProtocolPages

/-! ## Components -/

/-- What is made with settings of one's own does not show the active ones, and settings of one's own
come to the same as active ones. -/
structure Settings.Shadows {α : Type} (f : Settings → Option Settings → α) : Prop where
  /-- The active settings do not show. -/
  unnoticed : ∀ c a₁ a₂, f a₁ (some c) = f a₂ (some c)
  /-- Without settings of one's own, the active ones take their place. -/
  adopted : ∀ c a, f c none = f a (some c)

open Settings (Shadows)

/-- It is enough that settings of one's own come to the same as active ones. -/
theorem Settings.Shadows.of_adopted {α : Type} {f : Settings → Option Settings → α}
    (h : ∀ c a, f c none = f a (some c)) : Shadows f :=
  ⟨fun c a₁ a₂ => (h c a₁).symm.trans (h c a₂), h⟩

/-- What is made of something that shadows the active settings does so too. -/
theorem Settings.Shadows.map {α β : Type} {f : Settings → Option Settings → α} (h : Shadows f)
    (g : α → β) : Shadows fun active own => g (f active own) :=
  ⟨fun c a₁ a₂ => congrArg g (h.unnoticed c a₁ a₂), fun c a => congrArg g (h.adopted c a)⟩

/-- The choice between two settings. -/
theorem Settings.shadows_choose : Shadows choose :=
  .of_adopted fun c a => (choose_none c).trans (choose_some a c).symm

/-- A stub. -/
theorem shadows_renderStub (name : String) (fields : List StubField) :
    Shadows fun active own => renderStub active own name fields :=
  .of_adopted fun c a => by
    simp only [renderStub, Settings.shadows_choose.adopted c a]

namespace Resolver

/-- A resolver for given names. -/
theorem shadows_make (locals : List String) : Shadows fun active own => make active own locals :=
  Settings.shadows_choose.map (Resolver.mk locals)

/-- A resolver for the names of records. -/
theorem shadows_ofRecords (records : List Record) :
    Shadows fun active own => ofRecords active own records :=
  .of_adopted fun c a => by
    simp only [ofRecords, (shadows_make _).adopted c a]

end Resolver

/-- A method section hands its settings to the resolver and to both stubs. -/
theorem Method.shadows_render (m : Method) (index : Int) (records : List Record) :
    Shadows fun active own => m.render active own index records :=
  .of_adopted fun c a => by
    simp only [render, Settings.shadows_choose.adopted c a, Settings.choose_some,
      (Resolver.shadows_ofRecords records).unnoticed c c a,
      (shadows_renderStub _ _).unnoticed c c a]

/-- A record section hands its settings to the resolver and to the stub. -/
theorem Record.shadows_render (r : Record) (records : List Record) :
    Shadows fun active own => r.render active own records :=
  .of_adopted fun c a => by
    simp only [render, Settings.shadows_choose.adopted c a, Settings.choose_some,
      (Resolver.shadows_ofRecords records).unnoticed c c a,
      (shadows_renderStub _ _).unnoticed c c a]

namespace Protocol

variable (c a₁ a₂ : Settings) (p : Protocol)

/-- The method sections of a document are all made with its settings. -/
theorem methodSections_unnoticed : p.methodSections a₁ c = p.methodSections a₂ c := by
  simp only [methodSections, (Method.shadows_render _ _ _).unnoticed c a₁ a₂]

/-- The record sections of a document are all made with its settings. -/
theorem recordSections_unnoticed : p.recordSections a₁ c = p.recordSections a₂ c := by
  simp only [recordSections, (Record.shadows_render _ _).unnoticed c a₁ a₂]

/-- A document hands its settings to the sections. -/
theorem shadows_render (p : Protocol) : Shadows fun active own => p.render active own :=
  .of_adopted fun c a => by
    simp only [render, Settings.shadows_choose.adopted c a, Settings.choose_some,
      p.methodSections_unnoticed c c a, p.recordSections_unnoticed c c a]

end Protocol

/-- A walk over a schema settles its settings at the start. -/
theorem Cursor.shadows_start (schema : Schema) :
    Shadows fun active own => Cursor.start active own schema :=
  Settings.shadows_choose.map fun settings => Cursor.mk settings schema []

/-- Extraction. -/
theorem shadows_extract (counter : Int) (schema : Schema) :
    Shadows fun active own => extract active own counter schema :=
  (Cursor.shadows_start schema).map fun cursor => cursor.walk collect counter []

/-- Collecting a document hands the settings of the run to it. -/
theorem addDocument_unnoticed (c a₁ a₂ : Settings) : addDocument a₁ c = addDocument a₂ c := by
  funext documents p
  simp only [addDocument, p.shadows_render.unnoticed c a₁ a₂]

/-- Publishing a document hands the settings of the run to it. -/
theorem publish_unnoticed {σ : Type} (c a₁ a₂ : Settings) (writer : Writer σ) (folder : Path) :
    publish a₁ c writer folder = publish a₂ c writer folder := by
  funext state p
  simp only [publish, p.shadows_render.unnoticed c a₁ a₂]

/-- A run that collects documents hands its settings to the walk and to the documents. -/
theorem shadows_buildDocuments (counter : Int) (schema : Schema) :
    Shadows fun active own => buildDocuments active own counter schema :=
  .of_adopted fun c a => by
    simp only [buildDocuments, Settings.shadows_choose.adopted c a, Settings.choose_some,
      (Cursor.shadows_start schema).unnoticed c c a, addDocument_unnoticed c c a]

/-- A run that writes documents hands its settings to the walk and to the documents. -/
theorem shadows_generate {σ : Type} (writer : Writer σ) (store : σ) (folder : Path) (counter : Int)
    (schema : Schema) :
    Shadows fun active own => generate active own writer store folder counter schema :=
  .of_adopted fun c a => by
    simp only [generate, Settings.shadows_choose.adopted c a, Settings.choose_some,
      (Cursor.shadows_start schema).unnoticed c c a, publish_unnoticed c c a]

/-! ## Naming all settings -/

namespace Settings

/-- All settings by name, as a call can bring them. -/
def fields (c : Settings) : List (String × Value) :=
  c.entries.map fun (name, text) => (name, .text text)

/-- Each setting is found under its name. -/
theorem Field.ofName?_name (field : Field) : ofName? field.name = some field := by
  cases field <;> decide

/-- Entries for settings replace these settings one after another. -/
theorem overlay_entries (s c : Settings) (named : List Field) :
    s.overlay (named.map fun field => (field.name, .text (c.get field))) =
      .ok (named.foldl (fun s field => s.set field (c.get field)) s) := by
  induction named generalizing s with
  | nil => rfl
  | cons field rest ih =>
    simp only [List.map_cons, overlay, Field.ofName?_name]
    exact ih (s.set field (c.get field))

/-- Settings that are replaced have their new texts. -/
theorem get_foldl_set (s c : Settings) (named : List Field) (field : Field) :
    (named.foldl (fun s field => s.set field (c.get field)) s).get field =
      if field ∈ named then c.get field else s.get field := by
  induction named generalizing s with
  | nil => simp
  | cons first rest ih =>
    rw [List.foldl_cons, ih, get_set]
    by_cases hfirst : field = first
    · simp [hfirst]
    · simp [hfirst]

/-- Settings that bring all their texts are read back. -/
theorem ofFields_fields (c : Settings) : ofFields c.fields = .ok c := by
  have hall (field : Field) : field ∈ Field.all := by cases field <;> decide
  have hread : overlay {} (Field.all.map fun field => (field.name, Setting.text (c.get field))) =
      .ok c := by
    rw [overlay_entries]
    refine congrArg Except.ok (ext_get fun field => ?_)
    rw [get_foldl_set, if_pos (hall field)]
  calc ofFields c.fields
      = (overlay {} (Field.all.map fun field => (field.name, Setting.text (c.get field)))).mapError
          fun defect => Failure.settings ⟨defect, none⟩ := by
        simp only [ofFields, fields, entries, List.map_map]
        rfl
    _ = .ok c := by
        rw [hread]
        rfl

end Settings

/-! ## Calls -/

namespace SessionCommand

/-- Whether the command is a call of the library that works with settings from start to end. -/
def isCall : SessionCommand → Bool
  | .extract _ => true
  | .build _ => true
  | .generate _ _ => true
  | .resolve _ _ _ => true
  | .stub _ _ _ => true
  | .method _ _ _ _ => true
  | .record _ _ _ => true
  | .document _ _ => true
  | _ => false

/-- Whether the call makes a single thing and answers it. -/
def makes : SessionCommand → Bool
  | .resolve _ _ _ => true
  | .stub _ _ _ => true
  | .method _ _ _ _ => true
  | .record _ _ _ => true
  | .document _ _ => true
  | _ => false

/-- The call with the given settings of its own, or without any. -/
def bringing (own : Option (List (String × Value))) : SessionCommand → SessionCommand
  | .extract request => .extract { request with settings := own }
  | .build request => .build { request with settings := own }
  | .generate request folder => .generate { request with settings := own } folder
  | .resolve raw locals _ => .resolve raw locals own
  | .stub name stubFields _ => .stub name stubFields own
  | .method m index _ records => .method m index own records
  | .record r _ records => .record r own records
  | .document p _ => .document p own
  | command => command

/-- Whether the command brings all settings that it works with. A walk works with those that it was
started with. -/
def bringsSettings : SessionCommand → Bool
  | .extract request => request.settings.isSome
  | .build request => request.settings.isSome
  | .generate request _ => request.settings.isSome
  | .openWalk _ request => request.settings.isSome
  | .resolve _ _ own => own.isSome
  | .stub _ _ own => own.isSome
  | .method _ _ own _ => own.isSome
  | .record _ own _ => own.isSome
  | .document _ own => own.isSome
  | .showSettings => false
  | _ => true

/-- A call that is given settings brings all that it works with. It is not about settings itself,
and no advance of a walk. -/
theorem bringing_of_isCall {command : SessionCommand} (h : command.isCall = true)
    (own : List (String × Value)) :
    (command.bringing (some own)).bringsSettings = true ∧
      (command.bringing (some own)).aboutSettings = false ∧
      ∀ id, command.bringing (some own) ≠ .advanceWalk id := by
  cases command with
  | extract | build | generate | resolve | stub | method | record | document =>
    exact ⟨rfl, rfl, by simp [bringing]⟩
  | _ => cases h

end SessionCommand

/-- The session with other settings, active and put aside. -/
def Session.withSettings (active : Settings) (saved : List Settings) (s : Session) : Session :=
  { s with active := active, saved := saved }

/-- The session with other settings active. -/
def Session.under (s : Session) (active : Settings) : Session :=
  s.withSettings active s.saved

/-- The step with other settings in the session that it leaves. -/
def SessionStep.withSettings (active : Settings) (saved : List Settings) (step : SessionStep) :
    SessionStep :=
  { step with session := step.session.withSettings active saved }

/-- Two steps that come to the same apart from the active settings: they answer and report the same,
and leave the same counters, documents and walks. -/
structure SessionStep.SameApart (x y : SessionStep) : Prop where
  answer : x.answer = y.answer
  log : x.log = y.log
  session : { x.session with active := y.session.active } = y.session

namespace Session

/-- Settings that are brought and can be read are there. -/
theorem exists_of_broughtSettings {fields : List (String × Value)} {own : Option Settings}
    (h : broughtSettings (some fields) = .ok own) :
    ∃ c, Settings.ofFields fields = .ok c ∧ own = some c := by
  have hmap : broughtSettings (some fields) = some <$> Settings.ofFields fields := rfl
  rw [hmap] at h
  cases hread : Settings.ofFields fields with
  | error failure =>
    rw [hread] at h
    cases h
  | ok c =>
    rw [hread] at h
    exact ⟨c, rfl, (Except.ok.inj h).symm⟩

/-- A run that brings settings is prepared with settings of its own. -/
theorem exists_of_prepare {request : RunRequest} {log : Log} {schema : Schema}
    {own : Option Settings} (hown : request.settings.isSome = true)
    (h : prepare request = (log, .ok (schema, own))) : ∃ c, own = some c := by
  obtain ⟨fields, hfields⟩ := Option.isSome_iff_exists.mp hown
  have hresult := congrArg Prod.snd h
  simp only [prepare, hfields, bind_eq_ok_iff] at hresult
  obtain ⟨_, -, read, hread, hpair⟩ := hresult
  obtain ⟨c, -, rfl⟩ := exists_of_broughtSettings hread
  cases hpair
  exact ⟨c, rfl⟩

/-- An answer that is made with brought settings does not show the active ones. -/
theorem bind_unnoticed {α : Type} {f : Settings → Option Settings → Except Failure α}
    (h : Shadows f) (fields : List (String × Value)) (a₁ a₂ : Settings) :
    broughtSettings (some fields) >>= f a₁ = broughtSettings (some fields) >>= f a₂ := by
  cases hread : broughtSettings (some fields) with
  | error failure => rfl
  | ok own =>
    obtain ⟨c, -, rfl⟩ := exists_of_broughtSettings hread
    exact h.unnoticed c a₁ a₂

variable (s : Session) (active : Settings) (saved : List Settings)

/-- Counters are kept apart from settings. -/
theorem setCounter_withSettings (choice : CounterChoice) (value : Int) :
    (s.withSettings active saved).setCounter choice value =
      (s.setCounter choice value).withSettings active saved := by
  cases choice <;> rfl

/-- Counters are read apart from settings. -/
theorem counter_withSettings : (s.withSettings active saved).counter = s.counter := by
  funext choice
  cases choice <;> rfl

/-- A run over a whole schema that brings its settings is the same under all others, if the walk
with these settings is. -/
theorem runWalk_withSettings {σ : Type} {request : RunRequest}
    (hown : request.settings.isSome = true) {walk walk' : Option Settings → Int → Schema → Walk σ}
    (hwalk : ∀ c counter schema, walk' (some c) counter schema = walk (some c) counter schema)
    {keep : Session → σ → Session} (answer : σ → SessionAnswer)
    (hkeep : ∀ t state, keep (t.withSettings active saved) state =
      (keep t state).withSettings active saved) :
    (s.withSettings active saved).runWalk request walk' keep answer =
      (s.runWalk request walk keep answer).withSettings active saved := by
  unfold runWalk
  split
  · rfl
  · next log schema own hprepare =>
    obtain ⟨c, rfl⟩ := exists_of_prepare hown hprepare
    dsimp only
    rw [counter_withSettings, hwalk, setCounter_withSettings, hkeep]
    split <;> rfl

/-- An advance of a walk that was started with settings is the same under all others. -/
theorem advanceWalk_withSettings (id : String) {w : LazyWalk} (hown : w.settings.isSome = true) :
    (s.withSettings active saved).advanceWalk id w =
      (s.advanceWalk id w).withSettings active saved := by
  have hplace : (s.withSettings active saved).cursorOf w = s.cursorOf w := by
    obtain ⟨c, hown⟩ := Option.isSome_iff_exists.mp hown
    unfold cursorOf
    rw [hown, (Cursor.shadows_start w.schema).unnoticed c (s.withSettings active saved).active
      s.active]
  have hcounter : (s.withSettings active saved).walkCounter w = s.walkCounter w := by
    unfold walkCounter
    rw [counter_withSettings]
  unfold advanceWalk
  rw [hplace, hcounter]
  split
  · rfl
  · dsimp only
    rw [setCounter_withSettings]
    split <;> rfl

/-- Each walk under way was started with settings of its own. -/
def WalksSettled (s : Session) : Prop :=
  ∀ id w, s.walks.lookup id = some w → w.settings.isSome = true

variable {s} {command : SessionCommand}

/-- A call that makes a single thing answers with it, be it made with settings of the call or with
the active ones. -/
theorem exists_answer (hmakes : command.makes = true) :
    ∃ f : Settings → Option Settings → Except Failure SessionAnswer, Shadows f ∧
      ∀ (s : Session) (own : Option (List (String × Value))),
        s.perform (command.bringing own) = s.reply (broughtSettings own >>= f s.active) := by
  cases command with
  | resolve raw locals _ =>
    exact ⟨_, (Resolver.shadows_make locals).map fun r => .ok (.reference (r.resolveSpelling raw)),
      fun _ _ => rfl⟩
  | stub name stubFields _ =>
    exact ⟨_, (shadows_renderStub name stubFields).map fun text => .ok (.text text),
      fun _ _ => rfl⟩
  | method m index _ records =>
    exact ⟨_, (m.shadows_render index records).map fun made => do
      return .fragment (← made.mapError .misuse), fun _ _ => rfl⟩
  | record r _ records =>
    exact ⟨_, (r.shadows_render records).map fun made => do
      return .fragment (← made.mapError .misuse), fun _ _ => rfl⟩
  | document p _ =>
    exact ⟨_, p.shadows_render.map fun made => do return .text (← made.mapError .misuse),
      fun _ _ => rfl⟩
  | _ => cases hmakes

/-- A call that makes a single thing and brings its settings is the same under all others. -/
theorem perform_withSettings_of_makes (hmakes : command.makes = true)
    {fields : List (String × Value)} (hown : command.bringing (some fields) = command) :
    (s.withSettings active saved).perform command =
      (s.perform command).withSettings active saved := by
  obtain ⟨f, hf, hperform⟩ := exists_answer hmakes
  rw [← hown, hperform, hperform, bind_unnoticed hf fields _ s.active]
  rfl

/-- **Settings move past a command.** A command that brings all settings it works with does and
shows the same under all others. -/
theorem perform_withSettings (hbrings : command.bringsSettings = true)
    (habout : command.aboutSettings = false)
    (hwalks : ∀ id w, command = .advanceWalk id → s.walks.lookup id = some w →
      w.settings.isSome = true) :
    (s.withSettings active saved).perform command =
      (s.perform command).withSettings active saved := by
  cases command with
  | setSettings | resetSettings | enterContext | leaveContext | failContext => cases habout
  | showSettings => cases hbrings
  | nextName | showDocuments => rfl
  | extract request =>
    simp only [perform]
    exact s.runWalk_withSettings active saved hbrings
      (fun c counter schema => (shadows_extract counter schema).unnoticed c active s.active) _
      fun _ _ => rfl
  | build request =>
    simp only [perform]
    exact s.runWalk_withSettings active saved hbrings
      (fun c counter schema => (shadows_buildDocuments counter schema).unnoticed c active s.active)
      _ fun _ _ => rfl
  | generate request folder =>
    simp only [perform]
    exact s.runWalk_withSettings active saved hbrings
      (fun c counter schema =>
        (shadows_generate .memory s.shelf (.ofString folder) counter schema).unnoticed c active
          s.active) _ fun _ _ => rfl
  | openWalk id request =>
    simp only [perform]
    split
    · rfl
    · split <;> rfl
  | advanceWalk id =>
    have hsame : (s.withSettings active saved).walks = s.walks := rfl
    simp only [perform, hsame]
    split
    · next w hw => exact s.advanceWalk_withSettings active saved id (hwalks id w rfl hw)
    · rfl
  | resolve _ _ own | stub _ _ own | method _ _ own _ | record _ own _ | document _ own =>
    obtain ⟨fields, rfl⟩ := Option.isSome_iff_exists.mp hbrings
    exact perform_withSettings_of_makes active saved rfl rfl

/-- A run over a whole schema without settings of its own does what it does with the active ones, if
the walk does. -/
theorem runWalk_adopted {σ : Type} {own : List (String × Value)}
    (hown : Settings.ofFields own = .ok s.active) (request : RunRequest)
    {walk : Option Settings → Int → Schema → Walk σ}
    (hwalk : ∀ counter schema, walk none counter schema = walk (some s.active) counter schema)
    (keep : Session → σ → Session) (answer : σ → SessionAnswer) :
    s.runWalk { request with settings := none } walk keep answer =
      s.runWalk { request with settings := some own } walk keep answer := by
  have hnone : broughtSettings none = .ok none := rfl
  have hsome : broughtSettings (some own) = .ok (some s.active) := by
    rw [broughtSettings, Option.mapM_some, hown]
    rfl
  unfold runWalk prepare
  simp only [hnone, hsome]
  cases (Schema.load request.source).2 with
  | error failure => rfl
  | ok schema =>
    simp only [bind, Except.bind, pure, Except.pure, hwalk]

/-- A call that makes a single thing without settings of its own makes it with the active ones. -/
theorem perform_bringing_none_of_makes (hmakes : command.makes = true)
    {own : List (String × Value)} (hown : Settings.ofFields own = .ok s.active) :
    s.perform (command.bringing none) = s.perform (command.bringing (some own)) := by
  obtain ⟨f, hf, hperform⟩ := exists_answer hmakes
  rw [hperform, hperform]
  refine congrArg s.reply ?_
  rw [broughtSettings, broughtSettings, Option.mapM_some, hown]
  exact hf.adopted s.active s.active

/-- A call without settings of its own does what it does with the active ones. -/
theorem perform_bringing_none (hcall : command.isCall = true) {own : List (String × Value)}
    (hown : Settings.ofFields own = .ok s.active) :
    s.perform (command.bringing none) = s.perform (command.bringing (some own)) := by
  cases command with
  | extract request =>
    simp only [SessionCommand.bringing, perform]
    exact runWalk_adopted hown request
      (fun counter schema => (shadows_extract counter schema).adopted s.active s.active) _ _
  | build request =>
    simp only [SessionCommand.bringing, perform]
    exact runWalk_adopted hown request
      (fun counter schema => (shadows_buildDocuments counter schema).adopted s.active s.active) _ _
  | generate request folder =>
    simp only [SessionCommand.bringing, perform]
    exact runWalk_adopted hown request (fun counter schema =>
      (shadows_generate .memory s.shelf (.ofString folder) counter schema).adopted s.active
        s.active) _ _
  | resolve | stub | method | record | document => exact perform_bringing_none_of_makes rfl hown
  | _ => cases hcall

/-! ## Sessions without the commands about settings -/

/-- What the commands show, apart from those about settings: their answers and what they report. -/
def shown (s : Session) : List SessionCommand → List (Except Failure SessionAnswer × Log)
  | [] => []
  | command :: rest =>
    if command.aboutSettings then (s.perform command).session.shown rest
    else
      ((s.perform command).answer, (s.perform command).log) ::
        (s.perform command).session.shown rest

/-- Advancing a walk keeps the settings that it was started with. -/
theorem settled_advanceWalk (id : String) {w : LazyWalk} (hwalks : s.WalksSettled)
    (hw : w.settings.isSome = true) : (s.advanceWalk id w).session.WalksSettled := by
  have hput (after : Session) (hsame : after.walks = s.walks) (moved : LazyWalk)
      (hmoved : moved.settings = w.settings) : (after.putWalk id moved).WalksSettled := by
    intro other found hfound
    rw [lookup_putWalk, hsame] at hfound
    split at hfound
    · rw [← Option.some.inj hfound, hmoved]
      exact hw
    · exact hwalks other found hfound
  unfold advanceWalk
  split
  · exact hwalks
  · dsimp only
    split <;> exact hput _ (s.walks_setCounter _ _) _ rfl

/-- Commands that bring their settings start no walk without settings. -/
theorem settled_perform (hwalks : s.WalksSettled) (hbrings : command.bringsSettings = true) :
    (s.perform command).session.WalksSettled := by
  cases command with
  | openWalk id request =>
    obtain ⟨own, hown⟩ := Option.isSome_iff_exists.mp hbrings
    simp only [perform, hown]
    split
    · exact hwalks
    · split
      · exact hwalks
      · next settings hsettings =>
        intro other found hfound
        rw [lookup_putWalk] at hfound
        split at hfound
        · obtain ⟨c, -, rfl⟩ := exists_of_broughtSettings hsettings
          rw [← Option.some.inj hfound]
          rfl
        · exact hwalks other found hfound
  | advanceWalk id =>
    simp only [perform]
    split
    · next w hw => exact settled_advanceWalk id hwalks (hwalks id w hw)
    · exact hwalks
  | _ =>
    intro other found hfound
    rw [s.lookup_perform rfl rfl] at hfound
    exact hwalks other found hfound

/-- **Commands about settings cannot be noticed.** Where all commands bring the settings they work
with, the others show the same when the commands about settings are left out, and whatever settings
are active in the beginning. -/
theorem shown_of_settled {commands : List SessionCommand} (hwalks : s.WalksSettled)
    (hbrings : ∀ command ∈ commands, command.bringsSettings = true) :
    (s.withSettings active saved).shown commands =
      s.shown (commands.filter (!·.aboutSettings)) := by
  induction commands generalizing s active saved with
  | nil => rfl
  | cons command rest ih =>
    obtain ⟨hfirst, hrest⟩ := List.forall_mem_cons.mp hbrings
    cases habout : command.aboutSettings with
    | true =>
      rw [shown, habout, if_pos rfl, List.filter_cons_of_neg (by simp [habout]),
        perform_aboutSettings _ habout]
      exact ih _ _ hwalks hrest
    | false =>
      have hmoved := perform_withSettings active saved hfirst habout
        fun id w _ hw => hwalks id w hw
      rw [List.filter_cons_of_pos (by simp [habout]), shown, shown, habout,
        if_neg Bool.false_ne_true, if_neg Bool.false_ne_true, hmoved]
      exact congrArg (List.cons _) (ih active saved (settled_perform hwalks hfirst) hrest)

end Session

/-- **Settings of one's own shadow the active ones.** Whatever is made with settings `c` of its own
comes to the same under any two active settings, and to the same as without settings of its own when
`c` is active. This holds of every component on its own: resolved types, stubs, sections, documents,
and the three kinds of runs with all that they find, report, count, write and fail with. It holds of
every call in a session. All settings can be brought. In a session where all commands bring their
settings, nobody can tell which settings are active, nor whether they are changed in between. -/
theorem own_settings_shadow_active (s : Session) (c a₁ a₂ : Settings) :
    ((∀ locals raw, Shadows fun active own =>
        (Resolver.make active own locals).resolveSpelling raw) ∧
      (∀ name fields, Shadows fun active own => renderStub active own name fields) ∧
      (∀ (m : Method) index records, Shadows fun active own => m.render active own index records) ∧
      (∀ (r : Record) records, Shadows fun active own => r.render active own records) ∧
      (∀ p : Protocol, Shadows fun active own => p.render active own) ∧
      (∀ counter schema, Shadows fun active own => extract active own counter schema) ∧
      (∀ counter schema, Shadows fun active own => buildDocuments active own counter schema) ∧
      (∀ shelf folder counter schema, Shadows fun active own =>
        generate active own .memory shelf folder counter schema) ∧
      ∀ disk folder counter schema, Shadows fun active own =>
        generate active own .disk disk folder counter schema) ∧
    Settings.ofFields c.fields = .ok c ∧
    (∀ own, Settings.ofFields own = .ok c → ∀ command : SessionCommand, command.isCall = true →
      ((s.under a₁).perform (command.bringing (some own))).SameApart
        ((s.under a₂).perform (command.bringing (some own))) ∧
      ((s.under a₁).perform (command.bringing (some own))).SameApart
        ((s.under c).perform (command.bringing none))) ∧
    ∀ commands : List SessionCommand, s.WalksSettled →
      (∀ command ∈ commands, command.bringsSettings = true) →
        (s.under a₁).shown commands =
          (s.under a₂).shown (commands.filter (!·.aboutSettings)) := by
  refine ⟨⟨fun locals raw => (Resolver.shadows_make locals).map (·.resolveSpelling raw),
    shadows_renderStub, Method.shadows_render, Record.shadows_render, Protocol.shadows_render,
    shadows_extract, shadows_buildDocuments, shadows_generate .memory, shadows_generate .disk⟩,
    c.ofFields_fields, fun own hown command hcall => ?_, fun commands hwalks hbrings => ?_⟩
  · obtain ⟨hbrings, habout, hno⟩ := SessionCommand.bringing_of_isCall hcall own
    have hmoved (a : Settings) : (s.under a).perform (command.bringing (some own)) =
        (s.perform (command.bringing (some own))).withSettings a s.saved :=
      Session.perform_withSettings a s.saved hbrings habout
        fun id w hadvance _ => absurd hadvance (hno id)
    have hnone : (s.under c).perform (command.bringing none) =
        (s.under c).perform (command.bringing (some own)) :=
      Session.perform_bringing_none hcall hown
    rw [hnone, hmoved a₁, hmoved a₂, hmoved c]
    exact ⟨⟨rfl, rfl, rfl⟩, ⟨rfl, rfl, rfl⟩⟩
  · have hpurged (a : Settings) (later : List SessionCommand)
        (hlater : ∀ command ∈ later, command.bringsSettings = true) :
        (s.under a).shown later = s.shown (later.filter (!·.aboutSettings)) :=
      Session.shown_of_settled a s.saved hwalks hlater
    have hkept : ∀ command ∈ commands.filter (!·.aboutSettings), command.bringsSettings = true :=
      fun command h => hbrings command (List.mem_filter.mp h).1
    rw [hpurged a₁ commands hbrings, hpurged a₂ _ hkept, List.filter_filter]
    simp

/-- A document is rendered with settings of its own, while others are made active around it. -/
def shadowedCommands : List SessionCommand :=
  [.setSettings [("wiki_base", .text "v")],
    .document ⟨.text "Auth", "10", [], []⟩ (some [("wiki_base", .text "w")]), .resetSettings]

/-- The document shows neither the settings that are active at first nor those that are made
active. -/
theorem shadowedCommands_shown :
    Settings.ofFields [("wiki_base", .text "w")] = .ok { wikiBase := "w" } ∧
    ((Session.initial.under { wikiBase := "u" }).perform
        (.document ⟨.text "Auth", "10", [], []⟩ (some [("wiki_base", .text "w")]))).SameApart
      ((Session.initial.under { wikiBase := "w" }).perform
        (.document ⟨.text "Auth", "10", [], []⟩ none)) ∧
    (Session.initial.under { wikiBase := "u" }).shown shadowedCommands =
      (Session.initial.under {}).shown
        [.document ⟨.text "Auth", "10", [], []⟩ (some [("wiki_base", .text "w")])] := by
  have hown : Settings.ofFields [("wiki_base", .text "w")] = .ok { wikiBase := "w" } := rfl
  have hwalks : Session.initial.WalksSettled := fun id w h => by cases h
  have hbrings : ∀ command ∈ shadowedCommands, command.bringsSettings = true := by
    simp [shadowedCommands, SessionCommand.bringsSettings]
  obtain ⟨-, -, hcalls, hshown⟩ :=
    own_settings_shadow_active Session.initial { wikiBase := "w" } { wikiBase := "u" } {}
  exact ⟨hown, (hcalls _ hown (.document ⟨.text "Auth", "10", [], []⟩ none) rfl).2,
    hshown shadowedCommands hwalks hbrings⟩

end ProtocolPages
