import ProtocolPages.Proofs.Composition
import ProtocolPages.Proofs.NodeShapes
import ProtocolPages.Proofs.Numbering
import ProtocolPages.Proofs.Visits

/-!
# Documents that replace others

A run may write several documents to one place, and the last one stays. Here the documents of a run
are listed in the order in which they are written, each with the tree that it comes from. The list
accounts for all files of the disk afterwards and for everything that the log says about documents,
apart from what is left of a document on which the run breaks off. A document is announced as a
repetition exactly if an earlier one of its own tree has the same name; the names of earlier trees
have been forgotten.
-/

namespace ProtocolPages

/-! ## What a log says about documents -/

/-- Whether the record announces a repeated protocol name. -/
def LogRecord.isRepeat (r : LogRecord) : Bool :=
  r.level = .warning ∧ "Protocol ".toList <+: r.message.toList

/-- The records about documents: announcements of repeated names and of writing. -/
def Log.aboutDocuments (log : Log) : Log :=
  log.filter fun r => r.isRepeat || r.isWriting

@[simp] theorem Log.aboutDocuments_append (log₁ log₂ : Log) :
    Log.aboutDocuments (log₁ ++ log₂) = log₁.aboutDocuments ++ log₂.aboutDocuments :=
  List.filter_append ..

/-- Details are not about documents. -/
theorem aboutDocuments_of_levels {log : Log} (h : ∀ r ∈ log, r.level = .debug) :
    log.aboutDocuments = [] := by
  refine List.filter_eq_nil_iff.mpr fun r hr => ?_
  simp [LogRecord.isRepeat, LogRecord.isWriting, h r hr]

/-- What is said while a protocol is named is not about documents. -/
@[simp] theorem aboutDocuments_namingLog (settings : Settings) (counter : Int)
    (declared : Value) : (namingLog settings counter declared).aboutDocuments = [] := by
  refine List.filter_eq_nil_iff.mpr fun r hr => ?_
  rcases List.mem_append.mp hr with hwarning | hfound
  · cases hvacant : declared.isVacant with
    | true =>
      rw [nameProtocol_of_nameless hvacant] at hwarning
      rw [List.mem_singleton.mp hwarning]
      simp [LogRecord.isRepeat, LogRecord.isWriting]
    | false =>
      rw [nameProtocol_of_named hvacant] at hwarning
      exact absurd hwarning List.not_mem_nil
  · rw [List.mem_singleton.mp hfound]
    simp [LogRecord.isRepeat, LogRecord.isWriting]

/-- What is said about records that are left over is not about documents. -/
@[simp] theorem aboutDocuments_dropPending (counter : Int) (records : List Record) :
    (dropPending counter records).log.aboutDocuments = [] := by
  refine aboutDocuments_of_levels fun r hr => ?_
  unfold dropPending at hr
  split at hr
  · cases hr
  · split at hr
    · rw [List.mem_singleton.mp hr]
    · cases hr

/-- The announcement of a repeated name is about documents. -/
@[simp] theorem aboutDocuments_announceRepeat (name : Value) (seen : List Value) :
    (announceRepeat name seen).aboutDocuments = announceRepeat name seen := by
  refine List.filter_eq_self.mpr fun r hr => ?_
  unfold announceRepeat at hr
  split at hr
  · rw [List.mem_singleton.mp hr]
    simp [LogRecord.isRepeat, repeatRecord]
  · cases hr

/-- The record of a document that is written is about documents. -/
@[simp] theorem aboutDocuments_writingRecord (path : Path) :
    Log.aboutDocuments [writingRecord path] = [writingRecord path] := by
  have hwriting : (writingRecord path).isWriting = true := by
    simp [LogRecord.isWriting, writingRecord]
  simp [Log.aboutDocuments, hwriting]

/-- Loading a tree says nothing about documents. -/
theorem aboutDocuments_loadTree (d : Disk) (tree : Path) :
    (Command.loadTree d tree).1.aboutDocuments = [] := by
  refine aboutDocuments_of_levels fun r hr => ?_
  unfold Command.loadTree at hr
  split at hr
  · cases hr
  · unfold Schema.loadText at hr
    split at hr
    · cases hr
    · cases hr
    · simp only [Schema.loadTree, Schema.ofTree] at hr
      split at hr
      · cases hr
      · exact Node.level_of_mem_readElements hr
    · cases hr

/-! ## Deliveries -/

/-- A document that a run has written. -/
structure Delivery (settings : Settings) where
  /-- The position of its tree among those of the run. -/
  tree : Nat
  /-- The protocol that it describes. -/
  protocol : Protocol
  /-- Its text. -/
  text : String
  /-- The text is what the protocol is rendered to. -/
  rendered : protocol.render {} (some settings) = .ok text

namespace Delivery

variable {settings : Settings}

/-- The name of the protocol. -/
def name (x : Delivery settings) : Value :=
  x.protocol.name

/-- The path at which the document is written. -/
def path (folder : Path) (x : Delivery settings) : Path :=
  documentPath settings folder x.name

/-- An earlier document of the same tree has the name. -/
def Repeats (earlier : List (Delivery settings)) (x : Delivery settings) : Prop :=
  ∃ y ∈ earlier, y.tree = x.tree ∧ y.name.sameKey x.name = true

instance (earlier : List (Delivery settings)) (x : Delivery settings) :
    Decidable (x.Repeats earlier) :=
  inferInstanceAs (Decidable (∃ y ∈ earlier, y.tree = x.tree ∧ y.name.sameKey x.name = true))

/-- What is reported about a document: that it repeats a name, if it does, and that it is
written. -/
def report (folder : Path) (earlier : List (Delivery settings)) (x : Delivery settings) : Log :=
  (if x.Repeats earlier then [repeatRecord x.name] else []) ++ [writingRecord (x.path folder)]

/-- What is reported about documents, one after another. -/
def reports (folder : Path) (earlier : List (Delivery settings)) :
    List (Delivery settings) → Log
  | [] => []
  | x :: rest => x.report folder earlier ++ reports folder (earlier ++ [x]) rest

/-- The report about one more document comes last. -/
theorem reports_concat (folder : Path) (earlier xs : List (Delivery settings))
    (x : Delivery settings) :
    reports folder earlier (xs ++ [x]) =
      reports folder earlier xs ++ x.report folder (earlier ++ xs) := by
  induction xs generalizing earlier with
  | nil => simp [reports]
  | cons y rest ih => simp [reports, ih]

/-- Names are compared with those of the same tree only. -/
theorem announceRepeat_eq {earlier new : List (Delivery settings)} {x : Delivery settings}
    (hearlier : ∀ y ∈ earlier, y.tree < x.tree) (hnew : ∀ y ∈ new, y.tree = x.tree) :
    announceRepeat x.name (new.map name) =
      if x.Repeats (earlier ++ new) then [repeatRecord x.name] else [] := by
  have hiff : (new.map name).any (·.sameKey x.name) = true ↔ x.Repeats (earlier ++ new) := by
    rw [List.any_map, List.any_eq_true]
    constructor
    · rintro ⟨y, hy, hsame⟩
      exact ⟨y, List.mem_append_right earlier hy, hnew y hy, hsame⟩
    · rintro ⟨y, hy, htree, hsame⟩
      rcases List.mem_append.mp hy with hbefore | hsibling
      · have hless := hearlier y hbefore
        omega
      · exact ⟨y, hsibling, hsame⟩
  unfold announceRepeat
  simp only [hiff]

end Delivery

/-! ## What deliveries leave on a disk -/

namespace Disk

/-- The bytes of the file at a location, if there is one. -/
def file? (d : Disk) (location : Location) : Option ByteArray :=
  match d.entry? location with
  | some (.file bytes) => some bytes
  | _ => none

/-- Whether a path leads to a location. -/
def leadsTo (d : Disk) (path : Path) (location : Location) : Bool :=
  match d.locate path with
  | .ok there => there == location
  | .error _ => false

variable {d d' : Disk} {path : Path} {location there : Location}

/-- Where a path leads is told by its location. -/
theorem leadsTo_of_locate (h : d.locate path = .ok there) (location : Location) :
    d.leadsTo path location = (there == location) := by
  rw [leadsTo, h]

/-- There is a file where an entry is one. -/
theorem file?_eq_some {bytes : ByteArray} :
    d.file? location = some bytes ↔ d.entry? location = some (.file bytes) := by
  unfold file?
  split
  · next found hfound => rw [hfound]; simp
  · next hnot => exact iff_of_false (Option.some_ne_none bytes).symm (hnot bytes)

/-- Making folders changes no file. -/
theorem AddsFolders.file?_eq (h : AddsFolders d d') (location : Location) :
    d'.file? location = d.file? location := by
  refine Option.ext fun bytes => ?_
  rw [file?_eq_some, file?_eq_some]
  exact ⟨h.file, h.kept⟩

/-- The file that is put at a location is the file there. -/
theorem file?_put {bytes : ByteArray} (h : there ≠ []) (location : Location) :
    file? (d.put there (.file bytes)) location =
      if there == location then some bytes else d.file? location := by
  unfold file?
  rw [entry?_put h]
  by_cases hsame : location = there
  · simp [hsame]
  · simp [hsame, Ne.symm hsame]

/-- A file that is written has its bytes at the place to which its path leads. -/
theorem file?_write {bytes : ByteArray} (h : d.write path bytes = .ok d') :
    Grows d d' ∧ (∃ here last, d'.LeadsToName path here last) ∧
      ∀ l, d'.file? l = if d'.leadsTo path l then some bytes else d.file? l := by
  obtain ⟨here, last, hput, hgrows, hleads⟩ := write_leadsToName h
  refine ⟨hgrows, ⟨here, last, hleads⟩, fun l => ?_⟩
  rw [leadsTo_of_locate hleads.locate_eq, hput, file?_put (by simp)]

/-- A document that is refused leaves no more than folders, or its file is opened and its text
cannot be encoded. -/
theorem refused_cases {folder : Path} {name text : String} {failure : Failure}
    (h : d.writeDocument folder name text = (d', .error failure)) :
    AddsFolders d d' ∨ failure = .unencodable ∧ ∃ made, AddsFolders d made ∧
      made.write (folder.join (.ofString name)) .empty = .ok d' := by
  have hfiled := filed_writeDocument d folder name text
  have hadds := (ensureFolders_adds d folder).1
  rw [h] at hfiled
  cases hfiled with
  | unusableFolder _ => exact Or.inl (.refl d)
  | unmade hmade | unusableName _ hmade _ | refused hmade _ =>
    rw [hmade] at hadds
    exact Or.inl hadds
  | emptied _ hmade _ _ hwrite =>
    rw [hmade] at hadds
    exact Or.inr ⟨rfl, _, hadds, hwrite⟩

end Disk

/-- The documents have been written to the disk one after another, among other things, and after
them a file may have been opened in vain. -/
structure Delivered {settings : Settings} (start : Disk) (folder : Path)
    (deliveries : List (Delivery settings)) (opened : Option Path) (d : Disk) : Prop where
  /-- Nothing was taken off the disk. -/
  grows : Disk.Grows start d
  /-- The path of each document leads to its last name. -/
  lands : ∀ x ∈ deliveries, ∃ here last, d.LeadsToName (x.path folder) here last
  /-- The files are those from before, after each document has replaced what was at its place. The
  file that was opened in vain is empty. -/
  files : ∀ l, d.file? l = if opened.any (d.leadsTo · l) then some .empty else
    deliveries.foldl (fun bytes x =>
      if d.leadsTo (x.path folder) l then some x.text.toUTF8 else bytes) (start.file? l)

namespace Delivered

variable {settings : Settings} {start d d' : Disk} {folder : Path}
  {deliveries : List (Delivery settings)}

/-- Nothing has been delivered at first. -/
theorem nil (d : Disk) (folder : Path) :
    Delivered d folder ([] : List (Delivery settings)) none d :=
  ⟨.refl d, List.forall_mem_nil _, fun _ => rfl⟩

/-- Paths that lead somewhere keep doing so while the disk grows. -/
theorem leadsTo_eq (h : Delivered start folder deliveries none d) (hgrows : Disk.Grows d d')
    {x : Delivery settings} (hx : x ∈ deliveries) (l : Location) :
    d'.leadsTo (x.path folder) l = d.leadsTo (x.path folder) l := by
  obtain ⟨here, last, hleads⟩ := h.lands x hx
  rw [Disk.leadsTo_of_locate hleads.locate_eq,
    Disk.leadsTo_of_locate (hgrows.leadsToName hleads).locate_eq]

/-- What replaced what so far does not change while the disk grows. -/
theorem foldl_eq (h : Delivered start folder deliveries none d) (hgrows : Disk.Grows d d')
    (l : Location) :
    deliveries.foldl (fun bytes x =>
        if d'.leadsTo (x.path folder) l then some x.text.toUTF8 else bytes) (start.file? l) =
      d.file? l := by
  rw [h.files l, Option.any_none, if_neg Bool.false_ne_true]
  refine List.foldl_ext _ _ _ fun bytes x hx => ?_
  rw [h.leadsTo_eq hgrows hx]

/-- The documents keep their places while the disk grows. -/
theorem lands_of_grows (h : Delivered start folder deliveries none d) (hgrows : Disk.Grows d d') :
    ∀ x ∈ deliveries, ∃ here last, d'.LeadsToName (x.path folder) here last := by
  intro x hx
  obtain ⟨here, last, hleads⟩ := h.lands x hx
  exact ⟨here, last, hgrows.leadsToName hleads⟩

/-- Making folders delivers nothing. -/
theorem addsFolders (h : Delivered start folder deliveries none d) (hadds : Disk.AddsFolders d d') :
    Delivered start folder deliveries none d' where
  grows := h.grows.trans hadds.grows
  lands := h.lands_of_grows hadds.grows
  files l := by
    rw [h.foldl_eq hadds.grows, hadds.file?_eq, Option.any_none, if_neg Bool.false_ne_true]

/-- A file is opened in vain. -/
theorem opens (h : Delivered start folder deliveries none d) {made : Disk}
    (hadds : Disk.AddsFolders d made) {path : Path} (hwrite : made.write path .empty = .ok d') :
    Delivered start folder deliveries (some path) d' := by
  obtain ⟨hgrows, -, hfiles⟩ := Disk.file?_write hwrite
  have hall := hadds.grows.trans hgrows
  refine ⟨h.grows.trans hall, h.lands_of_grows hall, fun l => ?_⟩
  rw [h.foldl_eq hall, Option.any_some, hfiles, hadds.file?_eq]

/-- One more document is delivered. -/
theorem concat (h : Delivered start folder deliveries none d) {x : Delivery settings}
    {path : Path} (hwrite : d.writeDocument folder (x.name.plain ++ settings.fileExtension) x.text =
      (d', .ok path)) :
    path = x.path folder ∧ Delivered start folder (deliveries ++ [x]) none d' := by
  have hfiled := Disk.filed_writeDocument d folder (x.name.plain ++ settings.fileExtension) x.text
  rw [hwrite] at hfiled
  cases hfiled with
  | @written made _ hmade hfile =>
    refine ⟨rfl, ?_⟩
    have hadds := (Disk.ensureFolders_adds d folder).1
    rw [hmade] at hadds
    obtain ⟨hgrows, hleads, hfiles⟩ := Disk.file?_write hfile
    have hall := hadds.grows.trans hgrows
    refine ⟨h.grows.trans hall, List.forall_mem_append.mpr ⟨h.lands_of_grows hall, ?_⟩, fun l => ?_⟩
    · exact List.forall_mem_singleton.mpr hleads
    · rw [Option.any_none, if_neg Bool.false_ne_true, List.foldl_append, h.foldl_eq hall,
        List.foldl_cons, List.foldl_nil, hfiles, hadds.file?_eq]
      rfl

end Delivered

/-- The documents account for the disk and for what the log says about documents; what it says
beyond them is about a document that was not written, for which a file may have been opened. -/
structure Account {settings : Settings} (start : Disk) (folder : Path)
    (deliveries : List (Delivery settings)) (unwritten : Log) (opened : Option Path) (log : Log)
    (d : Disk) : Prop where
  delivered : Delivered start folder deliveries opened d
  reported : log.aboutDocuments = Delivery.reports folder [] deliveries ++ unwritten
  unwritten_cases : unwritten = [] ∨ ∃ name, unwritten = [repeatRecord name]

/-! ## The documents of one tree -/

section Tree

variable {settings : Settings} {start d : Disk} {folder : Path}
  {earlier : List (Delivery settings)} {log : Log} {number : Nat}

/-- In the middle of a tree: the documents so far are accounted for, and the names seen are those of
the documents of the tree. -/
def AccountedIn (start : Disk) (folder : Path) (earlier : List (Delivery settings)) (number : Nat)
    (schema : Schema) (log : Log) (state : Publication Disk) : Prop :=
  ∃ new : List (Delivery settings), Account start folder (earlier ++ new) [] none log state.store ∧
    (∀ x ∈ new, x.tree = number ∧ (Cursor.mk settings schema []).Yields x.protocol) ∧
    state.seen = new.map Delivery.name

/-- A log that says nothing more about documents changes nothing. -/
theorem Account.append {deliveries : List (Delivery settings)}
    (h : Account start folder deliveries [] none log d) {more : Log}
    (hmore : more.aboutDocuments = []) :
    Account start folder deliveries [] none (log ++ more) d where
  delivered := h.delivered
  reported := by rw [Log.aboutDocuments_append, hmore, List.append_nil, h.reported]
  unwritten_cases := h.unwritten_cases

/-- The same in the middle of a tree. -/
theorem AccountedIn.append {schema : Schema} {state : Publication Disk}
    (h : AccountedIn start folder earlier number schema log state) {more : Log}
    (hmore : more.aboutDocuments = []) :
    AccountedIn start folder earlier number schema (log ++ more) state := by
  obtain ⟨new, haccount, hnew⟩ := h
  exact ⟨new, haccount.append hmore, hnew⟩

/-- A document that is refused leaves at most the announcement of its name and an empty file. -/
theorem Account.refused {deliveries : List (Delivery settings)} {d' : Disk} {opened : Option Path}
    (h : Account start folder deliveries [] none log d)
    (hdelivered : Delivered start folder deliveries opened d') (name : Value) (seen : List Value) :
    Account start folder deliveries (announceRepeat name seen) opened
      (log ++ announceRepeat name seen) d' where
  delivered := hdelivered
  reported := by simp [h.reported]
  unwritten_cases := by
    unfold announceRepeat
    split
    · exact Or.inr ⟨name, rfl⟩
    · exact Or.inl rfl

/-- A path that is opened in vain is the path of a document, and the run fails on its text. -/
def OpenedInVain (settings : Settings) (folder : Path) (failure : Option Failure)
    (opened : Option Path) : Prop :=
  ∀ path ∈ opened, failure = some .unencodable ∧ ∃ name, path = documentPath settings folder name

/-- No path has been opened in vain. -/
theorem OpenedInVain.none (settings : Settings) (folder : Path) (failure : Option Failure) :
    OpenedInVain settings folder failure .none :=
  fun _ h => absurd h (Option.not_mem_none _)

/-- A run that does not fail has opened no path in vain. -/
theorem OpenedInVain.eq_none {opened : Option Path}
    (h : OpenedInVain settings folder .none opened) : opened = .none :=
  Option.eq_none_iff_forall_not_mem.mpr fun path hpath => nomatch (h path hpath).1

/-- One more document of a tree is accounted for, with the announcement that compares its name to
those of the tree. -/
theorem Account.concat {new : List (Delivery settings)} {d' : Disk} {path : Path}
    {x : Delivery settings} (h : Account start folder (earlier ++ new) [] none log d)
    (hearlier : ∀ y ∈ earlier, y.tree < x.tree) (hnew : ∀ y ∈ new, y.tree = x.tree)
    (hwrite : d.writeDocument folder (x.name.plain ++ settings.fileExtension) x.text =
      (d', .ok path)) :
    Account start folder (earlier ++ (new ++ [x])) [] none
      (log ++ (announceRepeat x.name (new.map Delivery.name) ++ [writingRecord path])) d' := by
  obtain ⟨rfl, hdelivered⟩ := h.delivered.concat hwrite
  rw [← List.append_assoc]
  refine ⟨hdelivered, ?_, Or.inl rfl⟩
  rw [Delivery.reports_concat, List.nil_append, Delivery.report,
    ← Delivery.announceRepeat_eq hearlier hnew]
  simp only [Log.aboutDocuments_append, aboutDocuments_announceRepeat,
    aboutDocuments_writingRecord, h.reported, List.append_nil]

/-- The visit of a protocol is accounted for: with one document more if it succeeds, and otherwise
with none. -/
theorem AccountedIn.publish {schema : Schema} {state : Publication Disk} {p : Protocol}
    (h : AccountedIn start folder earlier number schema log state)
    (hearlier : ∀ x ∈ earlier, x.tree < number)
    (hyields : (Cursor.mk settings schema []).Yields p) :
    ((publish {} settings .disk folder state p).failure = none ∧
      AccountedIn start folder earlier number schema
        (log ++ (publish {} settings .disk folder state p).log)
        (publish {} settings .disk folder state p).state) ∨
    ((publish {} settings .disk folder state p).failure ≠ none ∧
      ∃ (new : List (Delivery settings)) (unwritten : Log) (opened : Option Path),
        Account start folder (earlier ++ new) unwritten opened
          (log ++ (publish {} settings .disk folder state p).log)
          (publish {} settings .disk folder state p).state.store ∧
        OpenedInVain settings folder (publish {} settings .disk folder state p).failure opened ∧
        ∀ x ∈ new, x.tree = number ∧ (Cursor.mk settings schema []).Yields x.protocol) := by
  obtain ⟨new, haccount, hnew, hseen⟩ := h
  cases published_publish {} settings .disk folder state p with
  | unkeyed _ heq =>
    rw [heq]
    refine Or.inr ⟨Option.some_ne_none _, new, [], none, ?_, .none _ _ _, hnew⟩
    simpa using haccount
  | unrendered _ heq =>
    rw [heq]
    exact Or.inr ⟨Option.some_ne_none _, new, _, none, haccount.refused haccount.delivered _ _,
      .none _ _ _, hnew⟩
  | refused _ hwrite heq =>
    rw [heq]
    rw [Writer.disk_write] at hwrite
    refine Or.inr ⟨Option.some_ne_none _, new, announceRepeat p.name state.seen, ?_⟩
    rcases Disk.refused_cases hwrite with hadds | ⟨rfl, made, hadds, hopened⟩
    · exact ⟨none, haccount.refused (haccount.delivered.addsFolders hadds) _ _, .none _ _ _, hnew⟩
    · refine ⟨some (documentPath settings folder p.name),
        haccount.refused (haccount.delivered.opens hadds hopened) _ _, fun path hpath => ?_, hnew⟩
      exact ⟨rfl, p.name, (Option.mem_some.mp hpath).symm⟩
  | @written text store path hrender hwrite heq =>
    rw [heq]
    rw [Writer.disk_write] at hwrite
    let x : Delivery settings := ⟨number, p, text, hrender⟩
    have hwritten := haccount.concat (x := x) hearlier (fun y hy => (hnew y hy).1) hwrite
    rw [← hseen] at hwritten
    refine Or.inl ⟨rfl, new ++ [x], hwritten, ?_, ?_⟩
    · exact List.forall_mem_append.mpr ⟨hnew, List.forall_mem_singleton.mpr ⟨rfl, hyields⟩⟩
    · rw [hseen, List.map_append]
      rfl

/-- The documents of a tree are accounted for, if those of the trees before it are. -/
theorem Account.generate (h : Account start folder earlier [] none log d)
    (hearlier : ∀ x ∈ earlier, x.tree < number) (counter : Int) (schema : Schema) :
    let run := ProtocolPages.generate {} (some settings) .disk d folder counter schema
    ∃ (new : List (Delivery settings)) (unwritten : Log) (opened : Option Path),
      Account start folder (earlier ++ new) unwritten opened (log ++ run.log) run.state.store ∧
      OpenedInVain settings folder run.failure opened ∧
      (∀ x ∈ new, x.tree = number ∧ (Cursor.mk settings schema []).Yields x.protocol) ∧
      (run.failure = none → unwritten = []) := by
  intro run
  have hstart : AccountedIn start folder earlier number schema log ⟨d, [], []⟩ :=
    ⟨[], by rwa [List.append_nil], List.forall_mem_nil _, rfl⟩
  have hvisit : ∀ log state p, (Cursor.mk settings schema []).Yields p →
      AccountedIn start folder earlier number schema log state →
      (ProtocolPages.publish {} settings .disk folder state p).failure = none →
      AccountedIn start folder earlier number schema
        (log ++ (ProtocolPages.publish {} settings .disk folder state p).log)
        (ProtocolPages.publish {} settings .disk folder state p).state := by
    intro log state p hyields hinv hnone
    rcases hinv.publish hearlier hyields with ⟨-, hvisited⟩ | ⟨hfailed, -⟩
    · exact hvisited
    · exact absurd hnone hfailed
  have hends := Cursor.walk_ends settings schema []
    (fun log state counter declared h => h.append (aboutDocuments_namingLog _ _ _))
    (fun log state counter records h => h.append (aboutDocuments_dropPending _ _))
    hvisit counter hstart
  cases hends with
  | finished hinv _ | undirected hinv _ | unlisted hinv _ _ _ =>
    obtain ⟨new, haccount, hnew, -⟩ := hinv
    exact ⟨new, [], none, haccount, .none _ _ _, hnew, fun _ => rfl⟩
  | @stopped front state p failure hyields hinv hfailed hlog hstate hfailure =>
    rcases hinv.publish hearlier hyields with
      ⟨hnone, -⟩ | ⟨-, new, unwritten, opened, haccount, hopened, hnew⟩
    · rw [hnone] at hfailed
      cases hfailed
    · refine ⟨new, unwritten, opened, ?_, ?_, hnew, fun hnone => ?_⟩
      · rw [List.append_assoc, ← hlog, ← hstate] at haccount
        exact haccount
      · rw [hfailed, ← hfailure] at hopened
        exact hopened
      · exact absurd (hfailure.symm.trans hnone) (Option.some_ne_none _)

end Tree

/-! ## The documents of a run -/

namespace Delivery

variable {settings : Settings}

/-- The document describes a protocol of the tree at its position, as that tree was loaded in the
course of the run. -/
def ComesFrom (start : Disk) (trees : List Path) (x : Delivery settings) : Prop :=
  ∃ tree d schema, trees[x.tree]? = some tree ∧ Disk.Grows start d ∧
    (Command.loadTree d tree).2 = .ok schema ∧ (Cursor.mk settings schema []).Yields x.protocol

/-- The later document replaces the earlier one: their paths lead to one place. -/
def Replaces (d : Disk) (folder : Path) (later earlier : Delivery settings) : Prop :=
  d.locate (later.path folder) = d.locate (earlier.path folder)

/-- The name of the protocol is a text that makes the name of a file. -/
structure Plain (x : Delivery settings) : Prop where
  naming : x.name.IsNaming
  fileable : Fileable settings x.name

end Delivery

/-- Documents with plain names that come to one place have one name. -/
theorem Delivered.name_eq {settings : Settings} {start d : Disk} {folder : Path}
    {deliveries : List (Delivery settings)} {opened : Option Path}
    (h : Delivered start folder deliveries opened d)
    {x y : Delivery settings} (hx : x ∈ deliveries) (hy : y ∈ deliveries) (hplainx : x.Plain)
    (hplainy : y.Plain) (hsame : x.Replaces d folder y) : x.name = y.name := by
  -- The last name on the way to a document is its file name.
  have hfile {z : Delivery settings} (hz : z ∈ deliveries) (hplain : z.Plain) :
      ∃ here,
        d.locate (z.path folder) = .ok (here ++ [z.name.plain ++ settings.fileExtension]) := by
    obtain ⟨here, last, -, hlast, hlocate⟩ := h.lands z hz
    rw [Delivery.path, documentPath_of_fileable hplain.naming hplain.fileable, Path.file,
      List.getLast?_concat] at hlast
    rw [Option.some.inj hlast]
    exact ⟨here, hlocate⟩
  obtain ⟨herex, hlocatex⟩ := hfile hx hplainx
  obtain ⟨herey, hlocatey⟩ := hfile hy hplainy
  have hlocations := Except.ok.inj (hlocatex.symm.trans (hsame.trans hlocatey))
  have hlast := List.singleton_inj.mp (List.append_inj' hlocations rfl).2
  exact hplainx.naming.eq_of_plain hplainy.naming hlast

namespace Command

/-- The documents of a run are accounted for, tree by tree. -/
theorem processTrees_account {settings : Settings} {folder : Path} {start : Disk}
    (done trees : List Path) {earlier : List (Delivery settings)} {p : Progress}
    (h : Account start folder earlier [] none p.log p.disk) (hnone : p.failure = none)
    (hearlier : ∀ x ∈ earlier, x.tree < done.length)
    (horigin : ∀ x ∈ earlier, x.ComesFrom start (done ++ trees)) :
    let final := processTrees settings (some folder) p trees
    ∃ (deliveries : List (Delivery settings)) (unwritten : Log) (opened : Option Path),
      Account start folder deliveries unwritten opened final.log final.disk ∧
      OpenedInVain settings folder final.failure opened ∧
      (∀ x ∈ deliveries, x.ComesFrom start (done ++ trees)) ∧
      (final.failure = none → unwritten = []) := by
  intro final
  induction trees generalizing done earlier p with
  | nil => exact ⟨earlier, [], none, h, .none _ _ _, horigin, fun _ => rfl⟩
  | cons tree rest ih =>
    have hloaded := h.append (aboutDocuments_loadTree p.disk tree)
    cases hload : (loadTree p.disk tree).2 with
    | error failure =>
      have htree := processTree_eq_of_error settings (some folder) hload
      subst final
      rw [processTrees_of_failed (congrArg Progress.failure htree), htree]
      exact ⟨earlier, [], none, hloaded, .none _ _ _, horigin, fun _ => rfl⟩
    | ok schema =>
      have htree := processTree_eq settings folder hload
      obtain ⟨new, unwritten, opened, haccount, hopened, hnew, hfinished⟩ :=
        hloaded.generate hearlier p.counter schema
      have hall : ∀ x ∈ earlier ++ new, x.ComesFrom start (done ++ tree :: rest) := by
        refine List.forall_mem_append.mpr ⟨horigin, fun x hx => ?_⟩
        obtain ⟨hnumber, hyields⟩ := hnew x hx
        refine ⟨tree, p.disk, schema, ?_, h.delivered.grows, hload, hyields⟩
        rw [hnumber]
        simp
      cases hfailure :
          (generate {} (some settings) .disk p.disk folder p.counter schema).failure with
      | some failure =>
        rw [hfailure] at htree hopened
        subst final
        rw [processTrees_of_failed (congrArg Progress.failure htree), htree]
        refine ⟨_, unwritten, opened, haccount, hopened, hall, fun hnone => ?_⟩
        exact absurd hnone (Option.some_ne_none failure)
      | none =>
        -- Nothing is left over when a tree is finished, and the next one starts from there.
        rw [hfailure] at htree hopened
        rw [hfinished hfailure, hopened.eq_none] at haccount
        subst final
        rw [processTrees_of_written (congrArg Progress.failure htree), htree]
        have happend : done ++ tree :: rest = (done ++ [tree]) ++ rest := by simp
        rw [happend] at hall ⊢
        refine ih (done ++ [tree]) haccount rfl (fun x hx => ?_) hall
        rw [List.length_append, List.length_singleton]
        rcases List.mem_append.mp hx with hbefore | hlast
        · exact Nat.lt_succ_of_lt (hearlier x hbefore)
        · exact Nat.lt_succ_of_le (Nat.le_of_eq (hnew x hlast).1)

/-- A protocol without methods. -/
def emptyAuth : ProtocolDeclaration := ⟨.text "Auth", []⟩

/-- A protocol of the same name with a method. -/
def loginAuth : ProtocolDeclaration := ⟨.text "Auth", [⟨.text "Login", []⟩]⟩

/-- A working folder with a tree that declares both protocols, and a tree for each of them. -/
def repeatedTrees : Disk :=
  ⟨["w"], [(["w"], .folder), (["w", "docs"], .folder),
    (["w", "both.json"], treeFile [.protocol emptyAuth, .protocol loginAuth]),
    (["w", "a.json"], treeFile [.protocol emptyAuth]),
    (["w", "b.json"], treeFile [.protocol loginAuth])]⟩

namespace repeatedTrees

/-- The disk with a document. -/
def withDocument (text : String) : Disk :=
  ⟨["w"], repeatedTrees.entries ++ [(["w", "docs", "Auth.md"], .file text.toUTF8)]⟩

/-- The path of the document. -/
def authPath : Path := ⟨.working, ["docs", "Auth.md"]⟩

/-- The document of the protocol with a method: that of the protocol without, and more. -/
def loginDocument : String :=
  twoTrees.document ++ "\n| 1 | [Login](#1-login) |\n\n# (1) Login\n\n" ++
    "## Request\nThis method does not take any parameters\n```rust\n" ++
    "#[derive(Default, EndianRead, EndianWrite)]\npub struct LoginInput \x7b\n\x7d\n```\n\n" ++
    "## Response\nThis method does not return anything\n```rust\n" ++
    "#[derive(Default, EndianRead, EndianWrite)]\npub struct LoginOutput \x7b\n\x7d\n```"

/-- The protocol without methods is rendered to its document. -/
theorem render_emptyAuth :
    (definitionAt {} 0 [] emptyAuth).render {} (some {}) = .ok twoTrees.document :=
  twoTrees.render_eq

/-- The protocol with a method is rendered to its document. -/
theorem render_loginAuth :
    (definitionAt {} 0 [] loginAuth).render {} (some {}) = .ok loginDocument := by
  decide +kernel

/-- The document of the protocol with a method can be encoded. -/
theorem encode_loginDocument : Text.encode? loginDocument = some loginDocument.toUTF8 := by
  unfold loginDocument
  refine Text.encode?_append (Text.encode?_append (Text.encode?_append (Text.encode?_append
    (Text.encode?_append twoTrees.encode_document ?_) ?_) ?_) ?_) ?_
  all_goals exact Text.encode?_ofList (by decide)

/-- The first document is added to the disk. -/
theorem writeDocument_eq {text : String} (hcode : Text.encode? text = some text.toUTF8) :
    repeatedTrees.writeDocument (.ofString "docs") "Auth.md" text =
      (withDocument text, .ok authPath) := by
  unfold Disk.writeDocument
  rw [Disk.ensureFolders]
  simp only [hcode]
  rfl

/-- A second document replaces the first. -/
theorem writeDocument_again (text : String) {text' : String}
    (hcode : Text.encode? text' = some text'.toUTF8) :
    (withDocument text).writeDocument (.ofString "docs") "Auth.md" text' =
      (withDocument text', .ok authPath) := by
  unfold Disk.writeDocument
  rw [Disk.ensureFolders]
  simp only [hcode]
  rfl

/-- The tree with both protocols can be loaded. -/
theorem load_both : loadTree repeatedTrees (.ofString "both.json") =
    ([], .ok [.protocol emptyAuth, .protocol loginAuth]) :=
  loadTree_of_treeFile [.protocol emptyAuth, .protocol loginAuth] rfl (by decide +kernel)
    (by decide +kernel)

/-- The tree with the first protocol can be loaded. -/
theorem load_a : loadTree repeatedTrees (.ofString "a.json") = ([], .ok [.protocol emptyAuth]) :=
  loadTree_of_treeFile [.protocol emptyAuth] rfl (by decide +kernel) (by decide +kernel)

/-- The tree with the second protocol can be loaded, whatever was written before. -/
theorem load_b (text : String) :
    loadTree (withDocument text) (.ofString "b.json") = ([], .ok [.protocol loginAuth]) :=
  loadTree_of_treeFile [.protocol loginAuth] rfl (by decide +kernel) (by decide +kernel)

/-- What a walk does at a protocol of the name, on a disk that takes its document. -/
theorem walk_auth {d d' : Disk} {seen : List Value} {paths : List Path} {q : ProtocolDeclaration}
    {text : String} (hname : q.name = .text "Auth") (hdirected : ∀ m ∈ q.methods, m.Directed)
    (hrender : (definitionAt {} 0 [] q).render {} (some {}) = .ok text)
    (hwrite : d.writeDocument (.ofString "docs") "Auth.md" text = (d', .ok authPath))
    (rest : Schema) :
    (Cursor.mk {} (.protocol q :: rest) []).walk (publish {} {} .disk (.ofString "docs")) 0
        ⟨d, seen, paths⟩ =
      ((Cursor.mk {} rest []).walk (publish {} {} .disk (.ofString "docs")) 0
        ⟨d', seen ++ [.text "Auth"], paths ++ [authPath]⟩).after
        (namingLog {} 0 (.text "Auth") ++
          (announceRepeat (.text "Auth") seen ++ [writingRecord authPath])) := by
  obtain ⟨name, methods⟩ := q
  cases hname
  have hfile : (definitionAt {} 0 [] ⟨.text "Auth", methods⟩).name.plain ++
      Settings.fileExtension {} = "Auth.md" := rfl
  have hpublish : publish {} {} .disk (.ofString "docs") ⟨d, seen, paths⟩
      (definitionAt {} 0 [] ⟨.text "Auth", methods⟩) =
        ⟨⟨d', seen ++ [.text "Auth"], paths ++ [authPath]⟩,
          announceRepeat (.text "Auth") seen ++ [writingRecord authPath], none⟩ :=
    publish_eq rfl hrender (by rw [hfile]; exact hwrite)
  have hwalk := (walk_definitionAt {} 0 (publish {} {} .disk (.ofString "docs")) ⟨d, seen, paths⟩ []
    hdirected rest).1 (congrArg Visit.failure hpublish)
  rw [hpublish] at hwalk
  exact hwalk

/-- What the run makes of a tree that it can load. -/
theorem processTree_auth {d : Disk} {tree : Path} {log : Log} {schema : Schema}
    {state : Publication Disk} {more : Log} (hload : loadTree d tree = ([], .ok schema))
    (hwalk : generate {} (some {}) .disk d (.ofString "docs") 0 schema = ⟨state, 0, more, none⟩) :
    processTree {} (some (.ofString "docs")) ⟨d, 0, log, none⟩ tree =
      ⟨state.store, 0, log ++ more, none⟩ := by
  simp only [processTree, hload, hwalk, List.append_nil]

/-- The options of a run over trees without further arguments. -/
def plainOptions (trees : List String) : Options :=
  ⟨trees, some "docs", none, false, false, [], true⟩

/-- A run without further arguments takes its trees in order. -/
theorem process_plain (d : Disk) (trees : List String) :
    process d (plainOptions trees) = processTrees {} (some (.ofString "docs")) ⟨d, 0, [], none⟩
      (trees.map .ofString) := rfl

/-- What a run without further arguments comes to is what becomes of its trees. -/
theorem run_plain {trees : List String} (hparse : parse trees = .run (plainOptions trees))
    (d : Disk) : run trees d = (process d (plainOptions trees)).finish .info := by
  rw [run, hparse]
  rfl

/-- The method has no parameters that lack a direction. -/
theorem directed_loginAuth : ∀ m ∈ loginAuth.methods, m.Directed :=
  List.forall_mem_singleton.mpr (List.forall_mem_nil _)

end repeatedTrees

end Command

end ProtocolPages
