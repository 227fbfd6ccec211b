import ProtocolPages.Proofs.Composition
import ProtocolPages.Proofs.Visits

/-!
# Exit codes

The command promises the exit codes zero, one and two. Two stands for wrong arguments, zero for
help, for the version and for a run in which every document is written. Every other run should end
with one. That holds unless the first thing that goes wrong has no message: then the run breaks off.
All these causes are listed here, each by what it is in the input, and the list is exact.

The run is followed through its layers: files, documents, the declarations of a tree, trees. On each
layer one relation says how far the run comes, and another how it breaks off there.
-/

namespace ProtocolPages

/-! ## Files -/

/-- A file should hold a text that can be read, and does not, in a way that has no message. -/
inductive Garbled (LongNumber : String → Prop) (d : Disk) (path : Path) : Failure → Prop where
  /-- The path cannot be used: it cannot be encoded or has the zero character. -/
  | unusable {failure : Failure} (hpath : Disk.unusable? path = some failure) :
      Garbled LongNumber d path failure
  /-- The bytes are no text. -/
  | notText {bytes : ByteArray} (hread : d.readFile path = .ok bytes)
      (hbytes : String.fromUTF8? bytes = none) : Garbled LongNumber d path .notText
  /-- The text has a whole number that is too long. -/
  | integerTooLong {bytes : ByteArray} {text : String} (hread : d.readFile path = .ok bytes)
      (hbytes : String.fromUTF8? bytes = some text) (hlong : LongNumber text) :
      Garbled LongNumber d path .integerTooLong

/-- A path that cannot be used is no value that is misused. -/
theorem unusable?_ne_misuse {path : Path} {misuse : Misuse} :
    Disk.unusable? path ≠ some (.misuse misuse) := by
  intro h
  rcases Disk.unusable?_cases h with hcode | hzero
  · cases hcode
  · cases hzero

/-- No value is misused by reading a file. -/
theorem not_garbled_misuse {LongNumber : String → Prop} {d : Disk} {path : Path} {misuse : Misuse} :
    ¬Garbled LongNumber d path (.misuse misuse) := by
  intro h
  cases h with
  | unusable hpath => exact unusable?_ne_misuse hpath

/-- The text of a settings file has a whole number that is too long. -/
def LongNumberInSettings (text : String) : Prop :=
  Toml.read text = .error .integerTooLong

/-- The text of a tree has a whole number that is too long. -/
def LongNumberInTree (text : String) : Prop :=
  Json.read (String.ofList (Text.unifyLineEnds text.toList)) = .error .integerTooLong

section Files

variable {d : Disk} {path : Path} {failure : Failure}

/-- A settings file that cannot be used has a message for it, unless it is garbled. -/
theorem garbled_settings_iff :
    Settings.load d path = .error failure ∧ failure.message? = none ↔
      Garbled LongNumberInSettings d path failure := by
  constructor
  · rintro ⟨h, hmessage⟩
    unfold Settings.load at h
    split at h
    · cases h
      cases hmessage
    · next failure' hother hread =>
      cases h
      rcases Disk.readFile_eq_error hread with ⟨e, rfl⟩ | hpath
      · exact absurd rfl (hother e)
      · exact .unusable hpath
    · next bytes hread =>
      split at h
      · next hbytes =>
        cases h
        exact .notText hread hbytes
      · next text hbytes =>
        split at h
        · cases h
          cases hmessage
        · next hlong =>
          cases h
          exact .integerTooLong hread hbytes hlong
        · next document hdocument =>
          cases hsettings : Settings.ofDocument document with
          | ok settings =>
            rw [hsettings] at h
            cases h
          | error defect =>
            rw [hsettings] at h
            cases h
            cases hmessage
  · intro h
    cases h with
    | unusable hpath =>
      have hread := Disk.readFile_of_unusable (d := d) hpath
      rcases Disk.unusable?_cases hpath with rfl | rfl
      · exact ⟨by rw [Settings.load, hread], rfl⟩
      · exact ⟨by rw [Settings.load, hread], rfl⟩
    | notText hread hbytes => exact ⟨by simp only [Settings.load, hread, hbytes], rfl⟩
    | integerTooLong hread hbytes hlong =>
      rw [LongNumberInSettings] at hlong
      exact ⟨by simp only [Settings.load, hread, hbytes, hlong], rfl⟩

/-- A tree that cannot be loaded has a message for it, unless its file is garbled. -/
theorem garbled_tree_iff :
    (Command.loadTree d path).2 = .error failure ∧ failure.message? = none ↔
      Garbled LongNumberInTree d path failure := by
  constructor
  · rintro ⟨h, hmessage⟩
    unfold Command.loadTree at h
    split at h
    · next failure' hread =>
      cases h
      rcases bind_error_cases hread with hfile | ⟨bytes, hfile, htext⟩
      · rcases Disk.readFile_eq_error hfile with ⟨e, rfl⟩ | hpath
        · cases hmessage
        · exact .unusable hpath
      · split at htext
        · cases htext
        · next hbytes =>
          cases htext
          exact .notText hfile hbytes
    · next text hread =>
      obtain ⟨bytes, hfile, htext⟩ := bind_eq_ok_iff.mp hread
      split at htext
      · next s hbytes =>
        cases htext
        unfold Schema.loadText at h
        split at h
        · cases h
          cases hmessage
        · next hlong =>
          cases h
          exact .integerTooLong hfile hbytes hlong
        · obtain ⟨e, -, rfl⟩ := Schema.loadTree_eq_error_iff.mp h
          cases hmessage
        · cases h
          cases hmessage
      · cases htext
  · intro h
    cases h with
    | unusable hpath =>
      refine ⟨?_, ?_⟩
      · simp only [Command.loadTree, Disk.readText, Disk.readFile_of_unusable hpath, Bind.bind,
          Except.bind]
      · rcases Disk.unusable?_cases hpath with rfl | rfl <;> rfl
    | notText hread hbytes =>
      refine ⟨?_, rfl⟩
      simp only [Command.loadTree, Disk.readText, hread, hbytes, Bind.bind, Except.bind]
    | integerTooLong hread hbytes hlong =>
      rw [LongNumberInTree] at hlong
      refine ⟨?_, rfl⟩
      simp only [Command.loadTree, Disk.readText, hread, hbytes, Bind.bind, Except.bind, Pure.pure,
        Except.pure, Schema.loadText, hlong]

end Files

/-! ## Documents -/

section Documents

variable {settings : Settings} {folder : Path} {d d' : Disk} {p : Protocol} {failure : Failure}

/-- The document of a protocol is written to the disk. -/
structure Files (settings : Settings) (folder : Path) (d : Disk) (p : Protocol) (d' : Disk) :
    Prop where
  isKey : p.name.isKey = true
  writes : ∃ text path, p.render {} (some settings) = .ok text ∧
    d.writeDocument folder (p.name.plain ++ settings.fileExtension) text = (d', .ok path)

/-- The document of a protocol is not written, for a reason that has no message. -/
inductive Unfiled (settings : Settings) (folder : Path) (d : Disk) (p : Protocol) :
    Failure → Prop where
  /-- The name of the protocol cannot be a key. -/
  | unkeyed (hkey : p.name.isKey = false) : Unfiled settings folder d p (.misuse .notKey)
  /-- The protocol cannot be rendered. -/
  | unrendered {misuse : Misuse} (hkey : p.name.isKey = true)
      (hrender : p.render {} (some settings) = .error misuse) :
      Unfiled settings folder d p (.misuse misuse)
  /-- The path of the folder cannot be used. -/
  | unusableFolder {text : String} {failure : Failure} (hkey : p.name.isKey = true)
      (hrender : p.render {} (some settings) = .ok text)
      (hfolder : Disk.unusable? folder = some failure) : Unfiled settings folder d p failure
  /-- The folder can be made, and the path of the document cannot be used. -/
  | unusableName {text : String} {failure : Failure} (hkey : p.name.isKey = true)
      (hrender : p.render {} (some settings) = .ok text) (hfolder : Disk.unusable? folder = none)
      (hmade : (d.ensureFolders folder).2 = .ok ())
      (hname : Disk.unusable? (documentPath settings folder p.name) = some failure) :
      Unfiled settings folder d p failure
  /-- The file can be opened, and the document cannot be encoded. -/
  | unencodable {text : String} {made d' : Disk} (hkey : p.name.isKey = true)
      (hrender : p.render {} (some settings) = .ok text) (hfolder : Disk.unusable? folder = none)
      (hmade : d.ensureFolders folder = (made, .ok ()))
      (hname : Disk.unusable? (documentPath settings folder p.name) = none)
      (hopened : made.write (documentPath settings folder p.name) .empty = .ok d')
      (hcode : Text.encode? text = none) : Unfiled settings folder d p .unencodable

/-- A document that is filed takes nothing off the disk. -/
theorem Files.grows (h : Files settings folder d p d') : Disk.Grows d d' := by
  obtain ⟨text, path, -, hwrite⟩ := h.writes
  have hgrows := Disk.writeDocument_grows (congrArg Prod.snd hwrite)
  rwa [hwrite] at hgrows

/-- Neither a path nor a document at fault has a message. -/
theorem Unfiled.message?_eq (h : Unfiled settings folder d p failure) :
    failure.message? = none := by
  cases h with
  | unkeyed _ | unrendered _ _ | unencodable _ _ _ _ _ _ _ => rfl
  | unusableFolder _ _ hpath | unusableName _ _ _ _ hpath =>
    rcases Disk.unusable?_cases hpath with rfl | rfl <;> rfl

variable {state : Publication Disk}

/-- A document that can be written is written. -/
theorem publish_of_files (h : Files settings folder state.store p d') :
    (publish {} settings .disk folder state p).failure = none ∧
      (publish {} settings .disk folder state p).state.store = d' := by
  obtain ⟨text, path, hrender, hwrite⟩ := h.writes
  have hpublish : publish {} settings .disk folder state p = _ := publish_eq h.isKey hrender hwrite
  rw [hpublish]
  exact ⟨rfl, rfl⟩

/-- A document that is unfiled makes its visit fail. -/
theorem publish_of_unfiled (h : Unfiled settings folder state.store p failure) :
    (publish {} settings .disk folder state p).failure = some failure := by
  cases h with
  | unkeyed hkey => simp only [publish, hkey]; rfl
  | unrendered hkey hrender => simp only [publish, hkey, hrender]; rfl
  | @unusableFolder text failure hkey hrender hfolder =>
    have hwrite : state.store.writeDocument folder (p.name.plain ++ settings.fileExtension) text =
        (state.store, .error failure) := by
      rw [Disk.writeDocument, hfolder]
    simp only [publish, hkey, hrender, Writer.disk, hwrite]
    rfl
  | @unusableName text failure hkey hrender hfolder hmade hname =>
    have hwrite : (state.store.writeDocument folder (p.name.plain ++ settings.fileExtension)
        text).2 = .error failure := by
      rcases hensured : state.store.ensureFolders folder with ⟨made, e | _⟩
      · rw [hensured] at hmade
        cases hmade
      · rw [documentPath] at hname
        simp only [Disk.writeDocument, hfolder, hensured, hname]
    simp only [publish, hkey, hrender, Writer.disk, hwrite]
    rfl
  | @unencodable text made d' hkey hrender hfolder hmade hname hopened hcode =>
    have hwrite : state.store.writeDocument folder (p.name.plain ++ settings.fileExtension) text =
        (d', .error .unencodable) := by
      rw [documentPath] at hname hopened
      simp only [Disk.writeDocument, hfolder, hmade, hname, hcode, Option.getD_none, hopened]
      rfl
    simp only [publish, hkey, hrender, Writer.disk, hwrite]
    rfl

/-- A document is written, or there is a message, or the document is unfiled. -/
theorem publish_cases (settings : Settings) (folder : Path) (state : Publication Disk)
    (p : Protocol) :
    (∃ d', Files settings folder state.store p d') ∨
    ∃ failure, (publish {} settings .disk folder state p).failure = some failure ∧
      (failure.message?.isSome = true ∨ Unfiled settings folder state.store p failure) := by
  -- The name is tried as a key before the protocol is rendered.
  cases hkey : p.name.isKey with
  | false =>
    have hunfiled : Unfiled settings folder state.store p (.misuse .notKey) := .unkeyed hkey
    exact Or.inr ⟨_, publish_of_unfiled hunfiled, Or.inr hunfiled⟩
  | true =>
    have hpublished := published_publish {} settings .disk folder state p
    generalize publish {} settings .disk folder state p = visit at hpublished ⊢
    cases hpublished with
    | unkeyed hkey' _ =>
      rw [hkey] at hkey'
      cases hkey'
    | unrendered hrender heq =>
      rw [heq]
      exact Or.inr ⟨_, rfl, Or.inr (.unrendered hkey hrender)⟩
    | @refused text store failure hrender hwrite heq =>
      rw [heq]
      refine Or.inr ⟨failure, rfl, ?_⟩
      have hfiled :=
        Disk.filed_writeDocument state.store folder (p.name.plain ++ settings.fileExtension) text
      rw [← Writer.disk_write, hwrite] at hfiled
      cases hfiled with
      | unusableFolder hfolder => exact Or.inr (.unusableFolder hkey hrender hfolder)
      | unmade _ | refused _ _ => exact Or.inl rfl
      | unusableName hfolder hmade hname =>
        exact Or.inr (.unusableName hkey hrender hfolder (congrArg Prod.snd hmade) hname)
      | emptied hfolder hmade hname hcode hopened =>
        exact Or.inr (.unencodable hkey hrender hfolder hmade hname hopened hcode)
    | written hrender hwrite _ => exact Or.inl ⟨_, hkey, _, _, hrender, hwrite⟩

end Documents

/-! ## The declarations of a tree -/

/-- A run comes behind the declarations, and the disk then is as given: every protocol has
directions for its parameters, and its document is written. -/
inductive Passes (settings : Settings) (folder : Path) (counter : Int) (start : Disk) :
    Schema → Disk → Prop where
  | nil : Passes settings folder counter start [] start
  | record {before : Schema} {d : Disk} (r : Record)
      (hbefore : Passes settings folder counter start before d) :
      Passes settings folder counter start (before ++ [.record r]) d
  | protocol {before : Schema} {d d' : Disk} {q : ProtocolDeclaration}
      (hbefore : Passes settings folder counter start before d)
      (hdirected : ∀ m ∈ q.methods, m.Directed)
      (hfiles : Files settings folder d (definitionAt settings counter before q) d') :
      Passes settings folder counter start (before ++ [.protocol q]) d'

/-- The documents of a tree are written, and the records behind the last protocol have texts for
their names. -/
structure Delivers (settings : Settings) (folder : Path) (counter : Int) (start : Disk)
    (schema : Schema) (d : Disk) : Prop where
  passes : Passes settings folder counter start schema d
  listed : ∀ r ∈ schema.trailing, r.name.IsText

/-- The documents of a tree are not all written, and the first reason for it has no message. -/
inductive BreaksIn (settings : Settings) (folder : Path) (counter : Int) (start : Disk)
    (schema : Schema) : Failure → Prop where
  /-- The document of a protocol is unfiled. -/
  | unfiled {before after : Schema} {q : ProtocolDeclaration} {d : Disk} {failure : Failure}
      (hschema : schema = before ++ .protocol q :: after)
      (hbefore : Passes settings folder counter start before d)
      (hdirected : ∀ m ∈ q.methods, m.Directed)
      (hunfiled : Unfiled settings folder d (definitionAt settings counter before q) failure) :
      BreaksIn settings folder counter start schema failure
  /-- A record behind the last protocol has a name other than a text. -/
  | unlisted {d : Disk} {r : Record} (hpasses : Passes settings folder counter start schema d)
      (hrecord : r ∈ schema.trailing) (hname : ¬r.name.IsText) :
      BreaksIn settings folder counter start schema (.misuse .notJoinable)

section Declarations

variable {settings : Settings} {folder : Path} {counter : Int} {start d : Disk}
  {before schema : Schema} {failure : Failure}

/-- Protocols that pass take nothing off the disk. -/
theorem Passes.grows (h : Passes settings folder counter start schema d) :
    Disk.Grows start d := by
  induction h with
  | nil => exact .refl start
  | record _ _ ih => exact ih
  | protocol _ _ hfiles ih => exact ih.trans hfiles.grows

/-- A run that comes behind declarations goes on with those that follow. -/
theorem generate_append (h : Passes settings folder counter start before d) :
    ∃ (log : Log) (state : Publication Disk), state.store = d ∧ ∀ rest : Schema,
      generate {} (some settings) .disk start folder counter (before ++ rest) =
        ((Cursor.mk settings rest before.trailing).walk (publish {} settings .disk folder)
          (counter + before.nameless) state).after log := by
  induction h with
  | nil => exact ⟨[], ⟨start, [], []⟩, rfl, fun rest => by simp [generate_some]⟩
  | record r _ ih =>
    obtain ⟨log, state, hstore, hwalk⟩ := ih
    refine ⟨log, state, hstore, fun rest => ?_⟩
    rw [List.append_assoc, List.singleton_append, Schema.trailing_concat_record,
      Schema.nameless_concat_record, ← Cursor.walk_record]
    exact hwalk (.record r :: rest)
  | @protocol before d d' q _ hdirected hfiles ih =>
    obtain ⟨log, state, rfl, hwalk⟩ := ih
    obtain ⟨hnone, hstore⟩ := publish_of_files hfiles
    refine ⟨log ++ (namingLog settings (counter + Schema.nameless before) q.name ++
      (publish {} settings .disk folder state (definitionAt settings counter before q)).log), _,
      hstore, fun rest => ?_⟩
    rw [List.append_assoc, List.singleton_append, hwalk (.protocol q :: rest),
      (walk_definitionAt settings counter (publish {} settings .disk folder) state before hdirected
        rest).1 hnone, Walk.after_after, Schema.trailing_concat_protocol]

/-- The records that wait at the end decide how the run over a tree ends. -/
theorem generate_of_passes (h : Passes settings folder counter start schema d) :
    (generate {} (some settings) .disk start folder counter schema).state.store = d ∧
      (generate {} (some settings) .disk start folder counter schema).counter =
        counter + schema.nameless ∧
      (generate {} (some settings) .disk start folder counter schema).failure =
        (dropPending (counter + schema.nameless) schema.trailing).pull.failure? := by
  obtain ⟨log, state, hstore, hwalk⟩ := generate_append h
  have hend := hwalk []
  rw [List.append_nil, Cursor.walk_nil] at hend
  rw [hend]
  exact ⟨hstore, rfl, rfl⟩

/-- A run over a tree whose documents can be written succeeds. -/
theorem generate_of_delivers (h : Delivers settings folder counter start schema d) :
    (generate {} (some settings) .disk start folder counter schema).state.store = d ∧
      (generate {} (some settings) .disk start folder counter schema).counter =
        counter + schema.nameless ∧
      (generate {} (some settings) .disk start folder counter schema).failure = none := by
  obtain ⟨hstore, hcounter, hfailure⟩ := generate_of_passes h.passes
  refine ⟨hstore, hcounter, ?_⟩
  rcases Cursor.dropPending_cases (counter + schema.nameless) schema.trailing with
    ⟨-, hnone⟩ | ⟨⟨r, hr, hname⟩, -⟩
  · rw [hfailure, hnone]
  · exact absurd (h.listed r hr) hname

/-- A run over a tree that makes it break off fails without a message. -/
theorem generate_of_breaksIn (h : BreaksIn settings folder counter start schema failure) :
    (generate {} (some settings) .disk start folder counter schema).failure = some failure := by
  cases h with
  | @unfiled before after q d _ hschema hbefore hdirected hunfiled =>
    obtain ⟨log, state, rfl, hwalk⟩ := generate_append hbefore
    rw [hschema, hwalk]
    exact ((walk_definitionAt settings counter (publish {} settings .disk folder) state before
      hdirected after).2 failure (publish_of_unfiled hunfiled)).1
  | @unlisted d r hpasses hrecord hname =>
    obtain ⟨-, -, hfailure⟩ := generate_of_passes hpasses
    rcases Cursor.dropPending_cases (counter + schema.nameless) schema.trailing with
      ⟨htexts, -⟩ | ⟨-, hsome⟩
    · exact absurd (htexts r hrecord) hname
    · rw [hfailure, hsome]

/-- From any declaration on, the documents of a tree are written, or there is a message, or the run
breaks off. -/
theorem Passes.cases_append (h : Passes settings folder counter start before d) (rest : Schema) :
    (∃ d', Delivers settings folder counter start (before ++ rest) d') ∨
    ∃ failure,
      (generate {} (some settings) .disk start folder counter (before ++ rest)).failure =
        some failure ∧
      (failure.message?.isSome = true ∨
        BreaksIn settings folder counter start (before ++ rest) failure) := by
  -- The induction is on what is still to come; each declaration that is passed joins `before`.
  induction rest generalizing before d with
  | nil =>
    rw [List.append_nil]
    rcases Cursor.dropPending_cases (counter + before.nameless) before.trailing with
      ⟨htexts, -⟩ | ⟨⟨r, hr, hname⟩, -⟩
    · exact Or.inl ⟨d, h, htexts⟩
    · have hbreaks : BreaksIn settings folder counter start before (.misuse .notJoinable) :=
        .unlisted h hr hname
      exact Or.inr ⟨_, generate_of_breaksIn hbreaks, Or.inr hbreaks⟩
  | cons declaration rest ih =>
    cases declaration with
    | record r =>
      rw [List.append_cons]
      exact ih (h.record r)
    | protocol q =>
      obtain ⟨log, state, rfl, hwalk⟩ := generate_append h
      rcases toMethods_cases (protocolName settings (counter + before.nameless) q.name) q.methods
        with ⟨hdirected, -⟩ | ⟨-, e, herror⟩
      · rcases publish_cases settings folder state (definitionAt settings counter before q)
          with ⟨d', hfiles⟩ | ⟨failure, hfailed, hmessage | hunfiled⟩
        · rw [List.append_cons]
          exact ih (h.protocol hdirected hfiles)
        · refine Or.inr ⟨failure, ?_, Or.inl hmessage⟩
          rw [hwalk]
          exact ((walk_definitionAt settings counter (publish {} settings .disk folder) state before
            hdirected rest).2 failure hfailed).1
        · have hbreaks : BreaksIn settings folder counter start (before ++ .protocol q :: rest)
              failure := .unfiled rfl h hdirected hunfiled
          exact Or.inr ⟨failure, generate_of_breaksIn hbreaks, Or.inr hbreaks⟩
      · refine Or.inr ⟨.direction e, ?_, Or.inl rfl⟩
        rw [hwalk, Cursor.walk_protocol_of_error herror]
        rfl

/-- Only a tree with a value other than a text makes a run misuse a value. -/
theorem BreaksIn.not_textual {misuse : Misuse}
    (h : BreaksIn settings folder counter start schema (.misuse misuse)) : ¬schema.Textual := by
  intro htextual
  cases h with
  | unfiled hschema _ _ hunfiled =>
    rw [hschema] at htextual
    have hdefinition := textual_definitionAt htextual settings counter
    cases hunfiled with
    | unkeyed hkey =>
      obtain ⟨name, hname⟩ := hdefinition.name
      rw [hname] at hkey
      cases hkey
    | unrendered _ hrender =>
      obtain ⟨text, htext⟩ := hdefinition.exists_render {} settings
      rw [hrender] at htext
      cases htext
    | unusableFolder _ _ hpath | unusableName _ _ _ _ hpath => exact unusable?_ne_misuse hpath
  | unlisted _ hrecord hname => exact hname (htextual _ (Schema.mem_of_mem_trailing hrecord)).name

end Declarations

namespace Command

/-! ## Trees -/

/-- A run uses all the trees: each is loaded when its turn comes, and its documents are written. -/
inductive UsesAll (settings : Settings) (output : Option Path) :
    Disk → Int → List Path → Disk → Int → Prop where
  | nil {d : Disk} {counter : Int} : UsesAll settings output d counter [] d counter
  | cons {d next d' : Disk} {counter counter' : Int} {tree folder : Path} {rest : List Path}
      {schema : Schema} (houtput : output = some folder)
      (hload : (loadTree d tree).2 = .ok schema)
      (hdelivers : Delivers settings folder counter d schema next)
      (hrest : UsesAll settings output next (counter + schema.nameless) rest d' counter') :
      UsesAll settings output d counter (tree :: rest) d' counter'

/-- A run breaks off at a tree. -/
inductive BreaksAt (settings : Settings) (output : Option Path) (d : Disk) (counter : Int)
    (tree : Path) : Failure → Prop where
  /-- The file of the tree is garbled. -/
  | garbled {failure : Failure} (hgarbled : Garbled LongNumberInTree d tree failure) :
      BreaksAt settings output d counter tree failure
  /-- There is no folder for the documents. -/
  | noFolder {schema : Schema} (houtput : output = none)
      (hload : (loadTree d tree).2 = .ok schema) :
      BreaksAt settings output d counter tree .noFolder
  /-- The documents of the tree are not all written. -/
  | documents {folder : Path} {schema : Schema} {failure : Failure}
      (houtput : output = some folder) (hload : (loadTree d tree).2 = .ok schema)
      (hbreaks : BreaksIn settings folder counter d schema failure) :
      BreaksAt settings output d counter tree failure

section Trees

variable {settings : Settings} {output : Option Path} {d d' : Disk} {counter counter' : Int}
  {tree : Path} {trees : List Path} {failure : Failure}

/-- Trees that are used take nothing off the disk. -/
theorem UsesAll.grows (h : UsesAll settings output d counter trees d' counter') :
    Disk.Grows d d' := by
  induction h with
  | nil => exact .refl _
  | cons _ _ hdelivers _ ih => exact hdelivers.passes.grows.trans ih

/-- A run goes on behind trees that it uses. -/
theorem UsesAll.processTrees_append (h : UsesAll settings output d counter trees d' counter')
    (log : Log) : ∃ log', ∀ rest,
      processTrees settings output ⟨d, counter, log, none⟩ (trees ++ rest) =
        processTrees settings output ⟨d', counter', log', none⟩ rest := by
  induction h generalizing log with
  | nil => exact ⟨log, fun rest => rfl⟩
  | @cons d next d' counter counter' tree folder later schema houtput hload hdelivers _ ih =>
    subst houtput
    obtain ⟨hstore, hcounter, hnone⟩ := generate_of_delivers hdelivers
    have hprocess := processTree_eq settings folder hload (p := ⟨d, counter, log, none⟩)
    rw [hstore, hcounter, hnone] at hprocess
    obtain ⟨log', hrest⟩ := ih _
    refine ⟨log', fun rest => ?_⟩
    rw [List.cons_append, processTrees_of_written (congrArg Progress.failure hprocess), hprocess]
    exact hrest rest

/-- A run fails at a tree where it breaks off. -/
theorem processTree_of_breaksAt (h : BreaksAt settings output d counter tree failure) (log : Log) :
    (processTree settings output ⟨d, counter, log, none⟩ tree).failure = some failure := by
  cases h with
  | garbled hgarbled =>
    obtain ⟨hload, -⟩ := garbled_tree_iff.mpr hgarbled
    exact (processTree_of_error settings output hload (p := ⟨d, counter, log, none⟩)).1
  | noFolder houtput hload =>
    subst houtput
    unfold processTree
    rcases hloaded : loadTree d tree with ⟨more, failure | found⟩
    · rw [hloaded] at hload
      cases hload
    · rfl
  | @documents folder schema _ houtput hload hbreaks =>
    subst houtput
    rw [processTree_eq settings folder hload (p := ⟨d, counter, log, none⟩)]
    exact generate_of_breaksIn hbreaks

/-- Causes without message have no message. -/
theorem BreaksAt.message?_eq (h : BreaksAt settings output d counter tree failure) :
    failure.message? = none := by
  cases h with
  | garbled hgarbled => exact (garbled_tree_iff.mpr hgarbled).2
  | noFolder _ _ => rfl
  | documents _ _ hbreaks =>
    cases hbreaks with
    | unfiled _ _ _ hunfiled => exact hunfiled.message?_eq
    | unlisted _ _ _ => rfl

/-- A tree is used, or there is a message, or the run breaks off there. -/
theorem processTree_cases (settings : Settings) (output : Option Path) (d : Disk) (counter : Int)
    (log : Log) (tree : Path) :
    (∃ folder schema next, output = some folder ∧ (loadTree d tree).2 = .ok schema ∧
      Delivers settings folder counter d schema next) ∨
    ∃ failure, (processTree settings output ⟨d, counter, log, none⟩ tree).failure = some failure ∧
      (failure.message?.isSome = true ∨ BreaksAt settings output d counter tree failure) := by
  cases hload : (loadTree d tree).2 with
  | error failure =>
    have hprocess :=
      processTree_of_error settings output hload (p := ⟨d, counter, log, none⟩)
    refine Or.inr ⟨failure, hprocess.1, ?_⟩
    cases hmessage : failure.message? with
    | some message => exact Or.inl rfl
    | none => exact Or.inr (.garbled (garbled_tree_iff.mp ⟨hload, hmessage⟩))
  | ok schema =>
    cases output with
    | none =>
      have hbreaks : BreaksAt settings none d counter tree .noFolder := .noFolder rfl hload
      exact Or.inr ⟨_, processTree_of_breaksAt hbreaks log, Or.inr hbreaks⟩
    | some folder =>
      have hstart : Passes settings folder counter d [] d := .nil
      rcases hstart.cases_append schema with ⟨next, hdelivers⟩ | ⟨failure, hfailure, hcause⟩
      · exact Or.inl ⟨folder, schema, next, rfl, rfl, hdelivers⟩
      · refine Or.inr ⟨failure, ?_, hcause.imp_right (.documents rfl hload)⟩
        rw [processTree_eq settings folder hload (p := ⟨d, counter, log, none⟩)]
        exact hfailure

/-- All trees are used, or there is a message, or the run breaks off at the first tree that is not
used. -/
theorem processTrees_cases (settings : Settings) (output : Option Path) (d : Disk) (counter : Int)
    (log : Log) (trees : List Path) :
    (∃ d' counter', UsesAll settings output d counter trees d' counter') ∨
    ∃ failure,
      (processTrees settings output ⟨d, counter, log, none⟩ trees).failure = some failure ∧
      (failure.message?.isSome = true ∨ ∃ done tree rest d' counter',
        trees = done ++ tree :: rest ∧ UsesAll settings output d counter done d' counter' ∧
          BreaksAt settings output d' counter' tree failure) := by
  induction trees generalizing d counter log with
  | nil => exact Or.inl ⟨d, counter, .nil⟩
  | cons tree later ih =>
    rcases processTree_cases settings output d counter log tree with
      ⟨folder, schema, next, houtput, hload, hdelivers⟩ | ⟨failure, hfailure, hcause⟩
    · -- The tree alone is a run of its own, and the rest starts from what it leaves.
      have hone : UsesAll settings output d counter [tree] next (counter + schema.nameless) :=
        .cons houtput hload hdelivers .nil
      obtain ⟨log', hnext⟩ := hone.processTrees_append log
      rcases ih next (counter + schema.nameless) log' with
        ⟨d', counter', hrest⟩ | ⟨failure, hfailure, hcause⟩
      · exact Or.inl ⟨d', counter', .cons houtput hload hdelivers hrest⟩
      · refine Or.inr ⟨failure, (congrArg Progress.failure (hnext later)).trans hfailure, ?_⟩
        refine hcause.imp_right ?_
        rintro ⟨done, bad, rest, d', counter', rfl, hdone, hbreaks⟩
        exact ⟨tree :: done, bad, rest, d', counter', rfl,
          .cons houtput hload hdelivers hdone, hbreaks⟩
    · refine Or.inr ⟨failure, ?_, hcause.imp_right fun hbreaks => ?_⟩
      · rw [processTrees_of_failed hfailure]
        exact hfailure
      · exact ⟨[], tree, later, d, counter, rfl, .nil, hbreaks⟩

end Trees

/-! ## The command -/

/-- A run with the options writes all its documents. -/
def Completes (disk : Disk) (options : Options) : Prop :=
  ∃ settings d counter, chooseSettings disk options = .ok settings ∧
    UsesAll settings (options.output.map .ofString) disk 0 (options.trees.map .ofString) d counter

/-- A run with the options breaks off. -/
inductive BreaksOff (disk : Disk) (options : Options) : Failure → Prop where
  /-- The settings file is garbled. -/
  | settings {path : String} {failure : Failure} (hconfig : options.config = some path)
      (hgarbled : Garbled LongNumberInSettings disk (.ofString path) failure) :
      BreaksOff disk options failure
  /-- The trees up to some tree are used, and the run breaks off there. -/
  | tree {settings : Settings} {done rest : List Path} {tree : Path} {d : Disk} {counter : Int}
      {failure : Failure} (hsettings : chooseSettings disk options = .ok settings)
      (htrees : options.trees.map .ofString = done ++ tree :: rest)
      (hdone : UsesAll settings (options.output.map .ofString) disk 0 done d counter)
      (hbreaks : BreaksAt settings (options.output.map .ofString) d counter tree failure) :
      BreaksOff disk options failure

section Command

variable {disk : Disk} {options : Options} {failure : Failure}

/-- A run that completes does not fail. -/
theorem process_of_completes (h : Completes disk options) :
    (process disk options).failure = none := by
  obtain ⟨settings, d, counter, hsettings, huses⟩ := h
  obtain ⟨log, hprocess⟩ := huses.processTrees_append []
  have hall := hprocess []
  rw [List.append_nil] at hall
  rw [process, hsettings]
  exact congrArg Progress.failure hall

/-- A run that breaks off fails without a message. -/
theorem process_of_breaksOff (h : BreaksOff disk options failure) :
    (process disk options).failure = some failure ∧ failure.message? = none := by
  cases h with
  | settings hconfig hgarbled =>
    obtain ⟨hload, hmessage⟩ := garbled_settings_iff.mpr hgarbled
    refine ⟨?_, hmessage⟩
    simp only [process, chooseSettings, hconfig, hload]
  | tree hsettings htrees hdone hbreaks =>
    refine ⟨?_, hbreaks.message?_eq⟩
    obtain ⟨log, hprocess⟩ := hdone.processTrees_append []
    have hfailure := processTree_of_breaksAt hbreaks log
    simp only [process, hsettings, htrees, hprocess]
    rw [processTrees_of_failed hfailure]
    exact hfailure

/-- A run writes all its documents, or there is a message, or it breaks off. -/
theorem process_cases (disk : Disk) (options : Options) :
    Completes disk options ∨ ∃ failure, (process disk options).failure = some failure ∧
      (failure.message?.isSome = true ∨ BreaksOff disk options failure) := by
  cases hsettings : chooseSettings disk options with
  | error failure =>
    refine Or.inr ⟨failure, by rw [process, hsettings], ?_⟩
    cases hmessage : failure.message? with
    | some message => exact Or.inl rfl
    | none =>
      unfold chooseSettings at hsettings
      split at hsettings
      · next path hconfig =>
        exact Or.inr (.settings hconfig (garbled_settings_iff.mp ⟨hsettings, hmessage⟩))
      · cases hsettings
  | ok settings =>
    have hprocess : process disk options = processTrees settings
        (options.output.map .ofString) ⟨disk, 0, [], none⟩ (options.trees.map .ofString) := by
      rw [process, hsettings]
    rcases processTrees_cases settings (options.output.map .ofString) disk 0 []
      (options.trees.map .ofString) with ⟨d, counter, huses⟩ | ⟨failure, hfailure, hcause⟩
    · exact Or.inl ⟨settings, d, counter, hsettings, huses⟩
    · rw [hprocess]
      refine Or.inr ⟨failure, hfailure, hcause.imp_right ?_⟩
      rintro ⟨done, tree, rest, d, counter, htrees, hdone, hbreaks⟩
      exact .tree hsettings htrees hdone hbreaks

/-- The exit of a run is that of its failure. -/
theorem exit_run {args : List String} (h : parse args = .run options) :
    (run args disk).exit = exitOf (process disk options).failure := by
  rw [run, h]
  exact (exit_finish _ _).1

/-- The exit of a run says which of the three it was. -/
theorem exitOf_process (disk : Disk) (options : Options) :
    (exitOf (process disk options).failure = .ok 0 ∧ Completes disk options ∧
      ∀ failure, ¬BreaksOff disk options failure) ∨
    (exitOf (process disk options).failure = .ok 1 ∧ ¬Completes disk options ∧
      ∀ failure, ¬BreaksOff disk options failure) ∨
    ∃ failure, exitOf (process disk options).failure = .error failure ∧
      ¬Completes disk options ∧ ∀ other, BreaksOff disk options other ↔ other = failure := by
  rcases process_cases disk options with hcompletes | ⟨failure, hfailure, hcause⟩
  · have hnone := process_of_completes hcompletes
    refine Or.inl ⟨by rw [hnone]; rfl, hcompletes, fun failure hbreaks => ?_⟩
    rw [(process_of_breaksOff hbreaks).1] at hnone
    cases hnone
  · have hincomplete : ¬Completes disk options := by
      intro hcompletes
      rw [process_of_completes hcompletes] at hfailure
      cases hfailure
    have hsame {other : Failure} (hbreaks : BreaksOff disk options other) : other = failure := by
      rw [(process_of_breaksOff hbreaks).1] at hfailure
      exact Option.some.inj hfailure
    rcases hcause with hmessage | hbreaks
    · refine Or.inr (Or.inl ⟨?_, hincomplete, fun other hbreaks => ?_⟩)
      · rw [hfailure, exitOf, exitAt, if_pos hmessage]
      · have hnone := (process_of_breaksOff hbreaks).2
        rw [hsame hbreaks] at hnone
        rw [hnone] at hmessage
        cases hmessage
    · refine Or.inr (Or.inr ⟨failure, ?_, hincomplete, fun other => ⟨hsame, ?_⟩⟩)
      · have hnone := (process_of_breaksOff hbreaks).2
        rw [hfailure, exitOf, exitAt, hnone]
        rfl
      · rintro rfl
        exact hbreaks

/-- A value is misused only if a tree has a value other than a text where a text belongs. -/
theorem BreaksOff.not_textual {misuse : Misuse} (h : BreaksOff disk options (.misuse misuse)) :
    ∃ tree ∈ options.trees, ∃ d schema, Disk.Grows disk d ∧
      (loadTree d (.ofString tree)).2 = .ok schema ∧ ¬schema.Textual := by
  cases h with
  | settings _ hgarbled => exact absurd hgarbled not_garbled_misuse
  | @tree settings done rest path d counter _ hsettings htrees hdone hbreaks =>
    obtain ⟨tree, htree, rfl⟩ : ∃ tree ∈ options.trees, Path.ofString tree = path :=
      List.mem_map.mp (by rw [htrees]; simp)
    cases hbreaks with
    | garbled hgarbled => exact absurd hgarbled not_garbled_misuse
    | documents _ hload hin => exact ⟨tree, htree, d, _, hdone.grows, hload, hin.not_textual⟩

end Command

/-- A record whose name is a list. -/
def misnamedRecord : Record := ⟨.list [.text "Gathering"], .text "", []⟩

/-- A working folder with a tree that declares nothing but the record. -/
def misnamedTree : Disk :=
  ⟨["w"], [(["w"], .folder), (["w", "a.json"], treeFile [.record misnamedRecord])]⟩

namespace misnamedTree

/-- The name of the record is a list. -/
theorem not_isText_name : ¬misnamedRecord.name.IsText := by
  rintro ⟨s, hs⟩
  cases hs

/-- The tree can be loaded. -/
theorem loads :
    (loadTree misnamedTree (.ofString "a.json")).2 = .ok [.record misnamedRecord] :=
  congrArg Prod.snd (loadTree_of_treeFile [.record misnamedRecord] rfl (by decide +kernel)
    (by decide +kernel))

/-- The run breaks off when it drops the record. -/
theorem breaksOff :
    BreaksOff misnamedTree (Options.initial.takePlain "a.json") (.misuse .notJoinable) := by
  have hin : BreaksIn {} (.ofString "docs") 0 misnamedTree [.record misnamedRecord]
      (.misuse .notJoinable) :=
    .unlisted (.record misnamedRecord .nil) (List.mem_singleton_self _) not_isText_name
  exact .tree rfl rfl .nil (.documents rfl loads hin)

end misnamedTree

/-- The first of the two trees is enough for a run. -/
theorem completes_twoTrees : Completes twoTrees (Options.initial.takePlain "a.json") := by
  have hpasses : Passes {} (.ofString "docs") 0 twoTrees ([] ++ [.protocol ⟨.text "Auth", []⟩]) _ :=
    .protocol .nil (List.forall_mem_nil _)
      ⟨rfl, _, _, twoTrees.render_eq, twoTrees.writeDocument_eq⟩
  have hload := twoTrees.loads_first
  rw [loadedFirst] at hload
  exact ⟨{}, _, _, rfl, .cons rfl hload ⟨hpasses, List.forall_mem_nil _⟩ .nil⟩

end Command

end ProtocolPages
