import ProtocolPages.Proofs.DiskWrites
import ProtocolPages.Proofs.Visits

/-!
# Where documents may go

The path of a document is the output folder followed by a name that comes from the tree. It stays
right inside the folder exactly if the name, with the extension behind it, is the name of a file. A
run touches nothing else: what has changed on a disk is a document that was written, or a folder
that was made on the way to the output folder. Both are invariants of the run, whether it succeeds
or not.
-/

namespace ProtocolPages

/-! ## Paths -/

/-- The pieces of a list have none of what it is divided by. -/
theorem not_mem_of_mem_splitOn {α : Type} [BEq α] [LawfulBEq α] {separator : α}
    {items piece : List α} (h : piece ∈ items.splitOn separator) : separator ∉ piece := by
  induction items generalizing piece with
  | nil =>
    rw [List.splitOn_nil, List.mem_singleton] at h
    rw [h]
    exact List.not_mem_nil
  | cons item rest ih =>
    rw [List.splitOn_cons_eq_if_modifyHead] at h
    split at h
    · rcases List.mem_cons.mp h with rfl | hlater
      · exact List.not_mem_nil
      · exact ih hlater
    · next hother =>
      obtain ⟨first, others, hpieces⟩ :=
        List.exists_cons_of_ne_nil (List.splitOn_ne_nil separator rest)
      rw [hpieces] at h ih
      rcases List.mem_cons.mp h with rfl | hlater
      · refine List.not_mem_cons_of_ne_of_not_mem ?_ (ih List.mem_cons_self)
        rintro rfl
        exact hother (beq_self_eq_true _)
      · exact ih (List.mem_cons_of_mem first hlater)

namespace Path

/-- The names of a path that is read from a text have no slashes. -/
theorem slash_not_mem_of_mem_parts {s part : String} (h : part ∈ (ofString s).parts) :
    '/' ∉ part.toList := by
  obtain ⟨piece, hpiece, hpart⟩ := List.mem_filterMap.mp h
  split at hpart
  · cases hpart
  · cases hpart
    rw [String.toList_ofList]
    exact not_mem_of_mem_splitOn hpiece

/-- The path up to a number of names. -/
def upTo (path : Path) (n : Nat) : Path :=
  ⟨path.root, path.parts.take n⟩

/-- All parts of a path make the path. -/
theorem upTo_length (path : Path) : path.upTo path.parts.length = path := by
  rw [upTo, List.take_length]

/-- The front of the parent of a path is a front of the path. -/
theorem upTo_parent (path : Path) (n : Nat) :
    path.parent.upTo n = path.upTo (min n (path.parts.length - 1)) := by
  rw [upTo, upTo, parent, List.dropLast_eq_take, List.take_take]

end Path

/-- The path is that of a file right inside the folder, with the name of the protocol and the
extension. -/
def IsInside (settings : Settings) (folder : Path) (name : Value) (path : Path) : Prop :=
  path.parent = folder ∧ path.parts.getLast? = some (name.plain ++ settings.fileExtension)

/-- The path of a document is inside the folder exactly if the document has the name of a file. -/
theorem isInside_documentPath_iff {settings : Settings} (folder : Path) {name : Value}
    (hnaming : name.IsNaming) :
    IsInside settings folder name (documentPath settings folder name) ↔ Fileable settings name := by
  constructor
  · rintro ⟨hparent, hlast⟩
    have hparts : (documentPath settings folder name).parts =
        folder.parts ++ [name.plain ++ settings.fileExtension] := by
      rw [← List.dropLast_append_getLast? _ hlast]
      exact congrArg (· ++ _) (congrArg Path.parts hparent)
    -- Whether the name starts at the root or not, it has to be one of its own parts.
    have hmem : name.plain ++ settings.fileExtension ∈
        (Path.ofString (name.plain ++ settings.fileExtension)).parts := by
      unfold documentPath Path.join at hparts
      split at hparts
      · rw [List.append_cancel_left hparts]
        exact List.mem_singleton_self _
      · rw [hparts]
        simp
    refine ⟨Path.slash_not_mem_of_mem_parts hmem, fun hdot => ?_⟩
    rw [hdot] at hmem
    exact absurd hmem (by decide)
  · intro hfile
    rw [documentPath_of_fileable hnaming hfile]
    refine ⟨?_, List.getLast?_concat⟩
    rw [Path.parent, Path.file, List.dropLast_concat]

/-! ## Folders on the way -/

namespace Disk

variable {d d' d'' : Disk} {path folder : Path}

/-- Nothing was added but folders, each where some part of the path from its start on leads. -/
structure MakesWay (d : Disk) (path : Path) (d' : Disk) : Prop where
  adds : AddsFolders d d'
  on_way : ∀ l, d'.entry? l ≠ d.entry? l → ∃ n, d'.locate (path.upTo n) = .ok l

theorem MakesWay.refl (d : Disk) (path : Path) : MakesWay d path d :=
  ⟨.refl d, fun _ hl => absurd rfl hl⟩

/-- The way is made in two parts. -/
theorem MakesWay.trans (h : MakesWay d path d') (h' : MakesWay d' path d'') :
    MakesWay d path d'' where
  adds := h.adds.trans h'.adds
  on_way l hl := by
    by_cases hlater : d''.entry? l = d'.entry? l
    · rw [hlater] at hl
      obtain ⟨n, hn⟩ := h.on_way l hl
      exact ⟨n, h'.adds.grows.locate hn⟩
    · exact h'.on_way l hlater

/-- The way to the parent is part of the way. -/
theorem MakesWay.of_parent (h : MakesWay d path.parent d') : MakesWay d path d' where
  adds := h.adds
  on_way l hl := by
    obtain ⟨n, hn⟩ := h.on_way l hl
    rw [Path.upTo_parent] at hn
    exact ⟨_, hn⟩

/-- Where the way has been made there was nothing, and now there is a folder. -/
theorem MakesWay.changed (h : MakesWay d path d') {l : Location} (hl : d'.entry? l ≠ d.entry? l) :
    d.entry? l = none ∧ d'.entry? l = some .folder := by
  have hbefore : d.entry? l = none := by
    cases hentry : d.entry? l with
    | none => rfl
    | some entry => exact absurd ((h.adds.kept hentry).trans hentry.symm) hl
  refine ⟨hbefore, ?_⟩
  cases hentry : d'.entry? l with
  | none => exact absurd (hentry.trans hbefore.symm) hl
  | some entry =>
    cases entry with
    | folder => rfl
    | file bytes =>
      have hfile := h.adds.file hentry
      rw [hbefore] at hfile
      cases hfile

/-- A folder that is ensured is on the way to itself. -/
theorem ensureFolder_makesWay (h : d.ensureFolder path = .ok d') : MakesWay d path d' := by
  unfold ensureFolder at h
  split at h
  · next made hmade =>
    cases h
    obtain ⟨hadds, location, ⟨hlocate, -⟩, hothers⟩ := makeFolder_eq_ok hmade
    refine ⟨hadds, fun l hl => ⟨path.parts.length, ?_⟩⟩
    rw [Path.upTo_length, hlocate]
    by_contra hne
    exact hl (hothers l fun heq => hne (by rw [heq]))
  · split at h
    · cases h
    · split at h
      · cases h
        exact .refl d path
      · cases h

/-- Ensuring folders makes the way. -/
theorem ensureFolders_makesWay (d : Disk) (path : Path) :
    MakesWay d path (d.ensureFolders path).1 := by
  fun_induction ensureFolders d path with
  | case1 path made hmade => exact ensureFolder_makesWay hmade
  | case2 path _ _ => exact .refl d path
  | case3 path _ _ _ made e hparents ih =>
    rw [hparents] at ih
    exact ih.of_parent
  | case4 path _ _ _ parents hparents made hmade ih =>
    rw [hparents] at ih
    exact ih.of_parent.trans (ensureFolder_makesWay hmade)
  | case5 path _ _ _ made hparents _ _ ih =>
    rw [hparents] at ih
    exact ih.of_parent
  | case6 path _ _ _ => exact .refl d path

/-! ## What a run touches -/

/-- A folder is there that was not there at the start, and a part of the path from its start on
leads to it. -/
def IsMadeOnWay (start : Disk) (path : Path) (d : Disk) (l : Location) : Prop :=
  start.entry? l = none ∧ d.entry? l = some .folder ∧ ∃ n, d.locate (path.upTo n) = .ok l

/-- What has changed on a disk since the start is what the paths lead to, or a folder that was made
on the way to the output folder. -/
structure Touches (start : Disk) (folder : Path) (paths : List Path) (d : Disk) : Prop where
  grows : Grows start d
  leads : ∀ path ∈ paths, ∃ here last, LeadsToName d path here last
  folder_leads : paths ≠ [] → ∃ location, LeadsToFolder d folder location
  changed : ∀ l, d.entry? l ≠ start.entry? l →
    IsMadeOnWay start folder d l ∨ ∃ path ∈ paths, d.locate path = .ok l

namespace Touches

variable {start : Disk} {paths : List Path}

theorem refl (d : Disk) (folder : Path) : Touches d folder [] d :=
  ⟨.refl d, List.forall_mem_nil _, fun h => absurd rfl h, fun _ hl => absurd rfl hl⟩

/-- What was touched so far stays touched while the disk grows. -/
theorem changed_of_grows (h : Touches start folder paths d) (hgrows : Grows d d') {l : Location}
    (hsame : d'.entry? l = d.entry? l) (hl : d'.entry? l ≠ start.entry? l) :
    IsMadeOnWay start folder d' l ∨ ∃ path ∈ paths, d'.locate path = .ok l := by
  rw [hsame] at hl
  rcases h.changed l hl with ⟨hnone, hfolder, n, hn⟩ | ⟨path, hpath, hlocate⟩
  · exact Or.inl ⟨hnone, hsame.trans hfolder, n, hgrows.locate hn⟩
  · exact Or.inr ⟨path, hpath, hgrows.locate hlocate⟩

/-- The paths that were touched lead to their names while the disk grows. -/
theorem leads_of_grows (h : Touches start folder paths d) (hgrows : Grows d d') :
    ∀ path ∈ paths, ∃ here last, LeadsToName d' path here last := by
  intro path hpath
  obtain ⟨here, last, hleads⟩ := h.leads path hpath
  exact ⟨here, last, hgrows.leadsToName hleads⟩

/-- Making the way to the output folder touches nothing else. -/
theorem makesWay (h : Touches start folder paths d) (hway : MakesWay d folder d') :
    Touches start folder paths d' where
  grows := h.grows.trans hway.adds.grows
  leads := h.leads_of_grows hway.adds.grows
  folder_leads hne := by
    obtain ⟨location, hlocation⟩ := h.folder_leads hne
    exact ⟨location, hway.adds.grows.leadsToFolder hlocation⟩
  changed l hl := by
    by_cases hsame : d'.entry? l = d.entry? l
    · exact h.changed_of_grows hway.adds.grows hsame hl
    · obtain ⟨hnone, hfolder⟩ := hway.changed hsame
      have hstart : start.entry? l = none := by
        rw [← Option.not_isSome_iff_eq_none]
        intro hsome
        have hthere := h.grows.isSome hsome
        rw [hnone] at hthere
        cases hthere
      exact Or.inl ⟨hstart, hfolder, hway.on_way l hsame⟩

/-- Writing a file touches that file. -/
theorem write (h : Touches start folder paths d) {location : Location}
    (hfolder : LeadsToFolder d folder location) {path : Path} {bytes : ByteArray}
    (hwrite : d.write path bytes = .ok d') : Touches start folder (paths ++ [path]) d' := by
  obtain ⟨here, last, hput, hgrows, hleads⟩ := write_leadsToName hwrite
  refine ⟨h.grows.trans hgrows, List.forall_mem_append.mpr ⟨h.leads_of_grows hgrows, ?_⟩, ?_, ?_⟩
  · exact List.forall_mem_singleton.mpr ⟨here, last, hleads⟩
  · exact fun _ => ⟨location, hgrows.leadsToFolder hfolder⟩
  · intro l hl
    by_cases hplace : l = here ++ [last]
    · exact Or.inr ⟨path, by simp, hplace ▸ hleads.locate_eq⟩
    · have hsame : d'.entry? l = d.entry? l := by
        rw [hput, entry?_put (by simp), if_neg hplace]
      rcases h.changed_of_grows hgrows hsame hl with hway | ⟨before, hbefore, hlocate⟩
      · exact Or.inl hway
      · exact Or.inr ⟨before, List.mem_append_left _ hbefore, hlocate⟩

/-- Writing a document touches the document, if it is accepted, and the way to its folder. A text
that cannot be encoded may be refused when its file has been opened. -/
theorem writeDocument (h : Touches start folder paths d) (name text : String) :
    (∃ path, (d.writeDocument folder name text).2 = .ok path ∧
      Touches start folder (paths ++ [path]) (d.writeDocument folder name text).1) ∨
    ∃ failure, (d.writeDocument folder name text).2 = .error failure ∧
      (Touches start folder paths (d.writeDocument folder name text).1 ∨
        failure = .unencodable ∧ Touches start folder (paths ++ [folder.join (.ofString name)])
          (d.writeDocument folder name text).1) := by
  have hfiled := filed_writeDocument d folder name text
  have hway := h.makesWay (ensureFolders_makesWay d folder)
  have hleads := (ensureFolders_adds d folder).2
  generalize d.writeDocument folder name text = outcome at hfiled ⊢
  cases hfiled with
  | unusableFolder _ => exact Or.inr ⟨_, rfl, Or.inl h⟩
  | unmade hmade | unusableName _ hmade _ | refused hmade _ =>
    rw [hmade] at hway
    exact Or.inr ⟨_, rfl, Or.inl hway⟩
  | emptied _ hmade _ _ hwrite =>
    rw [hmade] at hway hleads
    obtain ⟨location, hlocation⟩ := hleads rfl
    exact Or.inr ⟨_, rfl, Or.inr ⟨rfl, hway.write hlocation hwrite⟩⟩
  | written hmade hwrite =>
    rw [hmade] at hway hleads
    obtain ⟨location, hlocation⟩ := hleads rfl
    exact Or.inl ⟨_, rfl, hway.write hlocation hwrite⟩

end Touches

/-- The files that have changed are right inside the folder and have the given names with the
extension. The rest that has changed are folders on the way to it. -/
def ChangesInside (start : Disk) (settings : Settings) (folder : Path) (names : List Value)
    (d : Disk) : Prop :=
  ∀ l, d.entry? l ≠ start.entry? l → IsMadeOnWay start folder d l ∨
    ∃ location, LeadsToFolder d folder location ∧
      ∃ name ∈ names, l = location ++ [name.plain ++ settings.fileExtension]

/-- The path of a document with the name of a file leads right into the folder. -/
theorem LeadsToName.inside {settings : Settings} {name : Value} {here location : Location}
    {last : String} (h : LeadsToName d (documentPath settings folder name) here last)
    (hfolder : LeadsToFolder d folder location) (hnaming : name.IsNaming)
    (hfile : Fileable settings name) :
    here ++ [last] = location ++ [name.plain ++ settings.fileExtension] := by
  rw [documentPath_of_fileable hnaming hfile] at h
  have hlast : name.plain ++ settings.fileExtension = last := by
    simpa [Path.file] using h.last_eq
  have hbefore : d.enter (d.origin folder) folder.parts = .ok here := by
    simpa [Path.file, origin] using h.before
  have hlocate := hfolder.1
  unfold locate at hlocate
  split at hlocate
  · cases hlocate
  · rw [hbefore] at hlocate
    cases hlocate
    rw [hlast]

/-- Documents with the names of files change nothing outside the folder. -/
theorem Touches.changesInside {settings : Settings} {start : Disk} {written names : List Value}
    (h : Touches start folder (written.map (documentPath settings folder)) d)
    (hsub : written ⊆ names) (hnaming : ∀ name ∈ names, name.IsNaming)
    (hfile : ∀ name ∈ names, Fileable settings name) :
    ChangesInside start settings folder names d := by
  intro l hl
  refine (h.changed l hl).imp_right ?_
  rintro ⟨path, hpath, hlocate⟩
  obtain ⟨location, hlocation⟩ := h.folder_leads (List.ne_nil_of_mem hpath)
  obtain ⟨here, last, hleads⟩ := h.leads path hpath
  obtain ⟨name, hname, rfl⟩ := List.mem_map.mp hpath
  refine ⟨location, hlocation, name, hsub hname, ?_⟩
  rw [← hleads.inside hlocation (hnaming name (hsub hname)) (hfile name (hsub hname))]
  exact Except.ok.inj (hlocate.symm.trans hleads.locate_eq)

end Disk

/-! ## Runs -/

section Runs

variable {σ : Type} {active settings : Settings} {writer : Writer σ} {folder : Path}

/-- The writer keeps a document at the name that it is given, followed from the folder. -/
def Writer.Joins (writer : Writer σ) : Prop :=
  ∀ {store : σ} {folder : Path} {name text : String} {store' : σ} {path : Path},
    writer.write store folder name text = (store', .ok path) → path = folder.join (.ofString name)

/-- Documents in memory are kept at the joined path. -/
theorem joins_memory : Writer.memory.Joins := by
  intro shelf folder name text shelf' path h
  cases h
  rfl

/-- Documents on a disk are kept at the joined path. -/
theorem joins_disk : Writer.disk.Joins := by
  intro d folder name text d' path h
  have hfiled := Disk.filed_writeDocument d folder name text
  rw [show d.writeDocument folder name text = (d', .ok path) from h] at hfiled
  cases hfiled
  rfl

/-- Where a run puts its documents. -/
structure Confined (settings : Settings) (folder : Path) (schema : Schema)
    (w : Walk (Publication σ)) : Prop where
  /-- Each name is that of a declared protocol, or made up for it. -/
  named : ∀ name ∈ w.state.seen,
    ∃ q ∈ schema.protocols, ∃ counter, name = protocolName settings counter q.name
  /-- The documents are written in order, each at the path for its name. -/
  paths_eq : ∃ written, written <+: w.state.seen ∧
    w.state.paths = written.map (documentPath settings folder)
  /-- After a success there is a path for each name. -/
  complete : w.failure = none → w.state.paths = w.state.seen.map (documentPath settings folder)
  /-- The path of a document is right inside the folder, under its own name, exactly if that is the
  name of a file. -/
  inside_iff : ∀ name ∈ w.state.seen,
    IsInside settings folder name (documentPath settings folder name) ↔ Fileable settings name

/-- A visit adds the path for the name of the protocol, or fails and adds no path. -/
theorem paths_publish (active : Settings) (hjoins : writer.Joins) (state : Publication σ)
    (p : Protocol) :
    ((publish active settings writer folder state p).failure = none ∧
      (publish active settings writer folder state p).state.seen = state.seen ++ [p.name] ∧
      (publish active settings writer folder state p).state.paths =
        state.paths ++ [documentPath settings folder p.name]) ∨
    ((publish active settings writer folder state p).failure ≠ none ∧
      state.seen <+: (publish active settings writer folder state p).state.seen ∧
      (publish active settings writer folder state p).state.seen <+: state.seen ++ [p.name] ∧
      (publish active settings writer folder state p).state.paths = state.paths) := by
  have hpublished := published_publish active settings writer folder state p
  generalize publish active settings writer folder state p = visit at hpublished ⊢
  cases hpublished with
  | unkeyed _ heq =>
    rw [heq]
    exact Or.inr ⟨Option.some_ne_none _, List.prefix_refl _, List.prefix_append _ _, rfl⟩
  | unrendered _ heq | refused _ _ heq =>
    rw [heq]
    exact Or.inr ⟨Option.some_ne_none _, List.prefix_append _ _, List.prefix_refl _, rfl⟩
  | written _ hwrite heq =>
    rw [heq, hjoins hwrite]
    exact Or.inl ⟨rfl, rfl, rfl⟩

/-- The paths of a run follow its names. -/
theorem paths_generate (hjoins : writer.Joins) (active settings : Settings) (store : σ)
    (folder : Path) (counter : Int) (schema : Schema) :
    (∃ written,
      written <+: (generate active (some settings) writer store folder counter schema).state.seen ∧
      (generate active (some settings) writer store folder counter schema).state.paths =
        written.map (documentPath settings folder)) ∧
    ((generate active (some settings) writer store folder counter schema).failure = none →
      (generate active (some settings) writer store folder counter schema).state.paths =
        (generate active (some settings) writer store folder counter schema).state.seen.map
          (documentPath settings folder)) := by
  -- Between two visits every name has its path. Only a visit that fails leaves a name without one.
  have hends : (Cursor.mk settings schema []).Ends (publish active settings writer folder)
      (fun _ state => state.paths = state.seen.map (documentPath settings folder)) []
      (generate active (some settings) writer store folder counter schema) := by
    refine Cursor.walk_ends settings schema [] (fun _ _ _ _ h => h) (fun _ _ _ _ h => h) ?_
      counter rfl
    intro _ state p _ hinv hnone
    rcases paths_publish active hjoins state p with ⟨-, hseen, hpaths⟩ | ⟨hfailed, -⟩
    · rw [hseen, hpaths, hinv, List.map_append]
      rfl
    · exact absurd hnone hfailed
  cases hends with
  | finished hinv _ | undirected hinv _ | unlisted hinv _ _ _ =>
    exact ⟨⟨_, List.prefix_refl _, hinv⟩, fun _ => hinv⟩
  | stopped _ hinv hvisit _ hstate hfailure =>
    rcases paths_publish active hjoins _ _ with ⟨hnone, -⟩ | ⟨-, hseen, -, hpaths⟩
    · rw [hnone] at hvisit
      cases hvisit
    · rw [hstate, hpaths, hfailure]
      exact ⟨⟨_, hseen, hinv⟩, fun h => absurd h (Option.some_ne_none _)⟩

/-- A run is confined whatever the writer does, as long as it keeps documents where it is told. -/
theorem confined_generate (hjoins : writer.Joins) (active settings : Settings) (store : σ)
    (folder : Path) (counter : Int) {schema : Schema}
    (hnames : ∀ q ∈ schema.protocols, q.name.IsTextOrNull) :
    Confined settings folder schema
      (generate active (some settings) writer store folder counter schema) := by
  have hnamed : ∀ name ∈
      (generate active (some settings) writer store folder counter schema).state.seen,
      ∃ q ∈ schema.protocols, ∃ counter, name = protocolName settings counter q.name := by
    refine Cursor.walk_keeps (fun state : Publication σ => ∀ name ∈ state.seen,
      ∃ q ∈ schema.protocols, ∃ counter, name = protocolName settings counter q.name)
      settings schema ?_ counter (List.forall_mem_nil _)
    intro state p hyields hseen name hname
    have hsub : (publish active settings writer folder state p).state.seen ⊆
        state.seen ++ [p.name] := by
      rcases paths_publish active hjoins state p with ⟨-, hseen, -⟩ | ⟨-, -, hseen, -⟩
      · rw [hseen]
        exact List.Subset.refl _
      · exact hseen.subset
    rcases List.mem_append.mp (hsub hname) with hbefore | hlast
    · exact hseen name hbefore
    · obtain ⟨q, hq, hfrom, -⟩ := hyields.declared
      rw [List.mem_singleton.mp hlast]
      exact ⟨q, hq, hfrom⟩
  obtain ⟨hpaths, hcomplete⟩ := paths_generate hjoins active settings store folder counter schema
  refine ⟨hnamed, hpaths, hcomplete, fun name hname => ?_⟩
  obtain ⟨q, hq, made, rfl⟩ := hnamed name hname
  exact isInside_documentPath_iff folder (isNaming_protocolName settings made (hnames q hq))

end Runs

/-- What has changed on a shelf since the start are the documents at the paths. -/
structure Shelf.Touches (start : Shelf) (paths : List Path) (shelf : Shelf) : Prop where
  held : ∀ path ∈ paths, (shelf.lookup path).isSome = true
  kept : ∀ path, path ∉ paths → shelf.lookup path = start.lookup path

/-- Putting one more document touches its path. -/
theorem Shelf.Touches.put {start shelf : Shelf} {paths : List Path}
    (h : Shelf.Touches start paths shelf) (path : Path) (text : String) :
    Shelf.Touches start (paths ++ [path]) (Ordered.put (· == ·) path text shelf) where
  held other hother := by
    rw [Ordered.lookup_put]
    split
    · rfl
    · next hne =>
      refine h.held other ((List.mem_append.mp hother).resolve_right fun hlast => hne ?_)
      exact List.mem_singleton.mp hlast
  kept other hother := by
    rw [Ordered.lookup_put, if_neg fun heq => hother (by simp [heq])]
    exact h.kept other fun hmem => hother (List.mem_append_left _ hmem)

/-- A run in memory touches the documents at its paths only. -/
theorem touches_memory (active settings : Settings) (shelf : Shelf) (folder : Path) (counter : Int)
    (schema : Schema) :
    Shelf.Touches shelf
      (generate active (some settings) .memory shelf folder counter schema).state.paths
      (generate active (some settings) .memory shelf folder counter schema).state.store := by
  rw [generate_some]
  refine Cursor.walk_keeps (fun state : Publication Shelf => shelf.Touches state.paths state.store)
    settings schema ?_ counter ⟨List.forall_mem_nil _, fun _ _ => rfl⟩
  intro state p _ h
  have hpublished := published_publish active settings .memory folder state p
  generalize publish active settings .memory folder state p = visit at hpublished ⊢
  cases hpublished with
  | unkeyed _ heq | unrendered _ heq =>
    rw [heq]
    exact h
  | refused _ hwrite heq => cases hwrite
  | written _ hwrite heq =>
    rw [heq]
    cases hwrite
    exact h.put _ _

/-- The paths that a run has opened are those of its documents. If the text of the last document
could not be encoded, its path may have been opened as well. -/
def OpenedBy {σ : Type} (settings : Settings) (folder : Path) (w : Walk (Publication σ))
    (paths : List Path) : Prop :=
  paths = w.state.paths ∨ w.failure = some .unencodable ∧ ∃ name,
    w.state.seen.getLast? = some name ∧ paths = w.state.paths ++ [documentPath settings folder name]

/-- A visit touches what was touched before and the document that it writes. If the text of the
document cannot be encoded, the visit fails and the path of the document may have been opened. -/
theorem touches_publish (active settings : Settings) {start : Disk} {folder : Path}
    {state : Publication Disk} (h : start.Touches folder state.paths state.store) (p : Protocol) :
    let visit := publish active settings .disk folder state p
    start.Touches folder visit.state.paths visit.state.store ∨
      visit.failure = some .unencodable ∧ visit.state.seen.getLast? = some p.name ∧
        start.Touches folder (visit.state.paths ++ [documentPath settings folder p.name])
          visit.state.store := by
  intro visit
  have hpublished : Published active settings .disk folder state p visit :=
    published_publish active settings .disk folder state p
  cases hpublished with
  | unkeyed _ heq | unrendered _ heq =>
    rw [heq]
    exact Or.inl h
  | @refused text store failure _ hwrite heq =>
    have hafter := h.writeDocument (p.name.plain ++ settings.fileExtension) text
    rw [← Writer.disk_write, hwrite] at hafter
    rw [heq]
    rcases hafter with ⟨_, hpath, -⟩ | ⟨failure, hrefusal, hkept | ⟨rfl, hopened⟩⟩
    · cases hpath
    · exact Or.inl hkept
    · cases hrefusal
      exact Or.inr ⟨rfl, List.getLast?_concat, hopened⟩
  | @written text store path _ hwrite heq =>
    have hafter := h.writeDocument (p.name.plain ++ settings.fileExtension) text
    rw [← Writer.disk_write, hwrite] at hafter
    rw [heq]
    rcases hafter with ⟨_, hpath, htouches⟩ | ⟨failure, hfailure, -⟩
    · cases hpath
      exact Or.inl htouches
    · cases hfailure

/-- A run on a disk touches what it has opened and makes the way to the folder. -/
theorem touches_disk (active settings : Settings) (disk : Disk) (folder : Path) (counter : Int)
    (schema : Schema) :
    ∃ paths, OpenedBy settings folder
        (generate active (some settings) .disk disk folder counter schema) paths ∧
      disk.Touches folder paths
        (generate active (some settings) .disk disk folder counter schema).state.store := by
  have hends : (Cursor.mk settings schema []).Ends (publish active settings .disk folder)
      (fun _ state => disk.Touches folder state.paths state.store) []
      (generate active (some settings) .disk disk folder counter schema) := by
    refine Cursor.walk_ends settings schema [] (fun _ _ _ _ h => h) (fun _ _ _ _ h => h) ?_
      counter (.refl disk folder)
    intro _ state p _ h hnone
    rcases touches_publish active settings h p with htouches | ⟨hfailure, -⟩
    · exact htouches
    · rw [hnone] at hfailure
      cases hfailure
  cases hends with
  | finished h _ | undirected h _ | unlisted h _ _ _ => exact ⟨_, Or.inl rfl, h⟩
  | @stopped _ state p failure _ h hvisit _ hstate hfailure =>
    unfold OpenedBy
    rw [hstate, hfailure, ← hvisit]
    rcases touches_publish active settings h p with htouches | ⟨hunencodable, hlast, htouches⟩
    · exact ⟨_, Or.inl rfl, htouches⟩
    · exact ⟨_, Or.inr ⟨hunencodable, p.name, hlast, rfl⟩, htouches⟩

/-- **Where documents go.** For names that are texts or absent, the path of every document is right
inside the output folder exactly if its name makes the name of a file, and a run touches nothing but
its documents and the way to the folder; the document on which it breaks off may have been opened.
So nothing outside the folder changes, unless a name has a slash or makes a single dot. -/
theorem documents_stay_inside (active settings : Settings) (counter : Int) (folder : Path)
    (schema : Schema) (hnames : ∀ q ∈ schema.protocols, q.name.IsTextOrNull) :
    (∀ shelf : Shelf,
      let run := generate active (some settings) .memory shelf folder counter schema
      Confined settings folder schema run ∧ shelf.Touches run.state.paths run.state.store) ∧
    ∀ disk : Disk,
      let run := generate active (some settings) .disk disk folder counter schema
      Confined settings folder schema run ∧
      (∃ paths, OpenedBy settings folder run paths ∧
        disk.Touches folder paths run.state.store) ∧
      ((∀ name ∈ run.state.seen, Fileable settings name) →
        disk.ChangesInside settings folder run.state.seen run.state.store) := by
  refine ⟨fun shelf => ⟨confined_generate joins_memory active settings shelf folder counter hnames,
    touches_memory active settings shelf folder counter schema⟩, fun disk => ?_⟩
  intro run
  have hconfined : Confined settings folder schema run :=
    confined_generate joins_disk active settings disk folder counter hnames
  obtain ⟨paths, hopened, htouches⟩ := touches_disk active settings disk folder counter schema
  refine ⟨hconfined, ⟨paths, hopened, htouches⟩, fun hfile => ?_⟩
  have hnaming : ∀ name ∈ run.state.seen, name.IsNaming := by
    intro name hname
    obtain ⟨q, hq, made, rfl⟩ := hconfined.named name hname
    exact isNaming_protocolName settings made (hnames q hq)
  obtain ⟨written, hwritten, hpaths⟩ := hconfined.paths_eq
  rcases hopened with rfl | ⟨-, name, hname, rfl⟩
  · rw [show (generate active (some settings) .disk disk folder counter schema).state.paths = _
      from hpaths] at htouches
    exact htouches.changesInside hwritten.subset hnaming hfile
  · rw [show (generate active (some settings) .disk disk folder counter schema).state.paths = _
      from hpaths, ← List.map_singleton, ← List.map_append] at htouches
    have hseen : written ++ [name] ⊆ run.state.seen :=
      List.append_subset.mpr ⟨hwritten.subset,
        List.cons_subset.mpr ⟨List.mem_of_getLast? hname, List.nil_subset _⟩⟩
    exact htouches.changesInside hseen hnaming hfile

/-- A disk with nothing but the working folder. -/
def bareDisk : Disk := ⟨["w"], [(["w"], .folder)]⟩

/-- Two protocols with plain names. -/
def plainSchema : Schema := [.protocol ⟨.text "Auth", []⟩, .protocol ⟨.text "Friends", []⟩]

/-- Documents with plain names are all that changes, apart from the way to their folder. -/
theorem plainSchema_changesInside :
    (∀ q ∈ plainSchema.protocols, q.name.IsTextOrNull) ∧
    bareDisk.ChangesInside {} (.ofString "out")
      (generate {} (some {}) .disk bareDisk (.ofString "out") 0 plainSchema).state.seen
      (generate {} (some {}) .disk bareDisk (.ofString "out") 0 plainSchema).state.store := by
  have hnames : ∀ q ∈ plainSchema.protocols, q.name.IsTextOrNull :=
    List.forall_mem_cons.mpr
      ⟨Or.inr ⟨"Auth", rfl⟩, List.forall_mem_singleton.mpr (Or.inr ⟨"Friends", rfl⟩)⟩
  obtain ⟨hconfined, -, hinside⟩ :=
    (documents_stay_inside {} {} 0 (.ofString "out") plainSchema hnames).2 bareDisk
  refine ⟨hnames, hinside fun name hname => ?_⟩
  obtain ⟨q, hq, counter, rfl⟩ := hconfined.named name hname
  rcases List.mem_cons.mp hq with rfl | hq
  · show Fileable {} (.text "Auth")
    exact ⟨by decide +kernel, by decide +kernel⟩
  · rw [List.mem_singleton.mp hq]
    show Fileable {} (.text "Friends")
    exact ⟨by decide +kernel, by decide +kernel⟩

/-- A protocol whose name climbs out of a folder. -/
def climbing : ProtocolDeclaration := ⟨.text "../x", []⟩

/-- Its document, as it is shown without methods and records. -/
def climbingText : String :=
  "## [NEX-Protocols](https://github.com/kinnay/NintendoClients/wiki/NEX-Protocols) > ../x " ++
    "(Unknown ID)\n\n| Method ID | Method Name |\n| --- | --- |"

/-- The disk after a document has climbed out of the folder. -/
def climbedDisk : Disk :=
  ⟨["w"], [(["w"], .folder), (["w", "out"], .folder),
    (["w", "x.md"], .file climbingText.toUTF8)]⟩

/-- The document is written next to the folder that was made for it. -/
theorem writeDocument_climbing :
    bareDisk.writeDocument (.ofString "out") "../x.md" climbingText =
      (climbedDisk, .ok ⟨.working, ["out", "..", "x.md"]⟩) := by
  have hcode : Text.encode? climbingText = some climbingText.toUTF8 :=
    Text.encode?_append (Text.encode?_ofList (by decide)) (Text.encode?_ofList (by decide))
  unfold Disk.writeDocument
  rw [Disk.ensureFolders]
  simp only [hcode]
  rfl

/-- A name that climbs out of the output folder takes its document along. -/
theorem climbing_leaves_folder :
    (generate {} (some {}) .disk bareDisk (.ofString "out") 0 [.protocol climbing]).failure =
        none ∧
      (generate {} (some {}) .disk bareDisk (.ofString "out") 0 [.protocol climbing]).state =
        ⟨climbedDisk, [.text "../x"], [⟨.working, ["out", "..", "x.md"]⟩]⟩ ∧
      ¬IsInside {} (.ofString "out") (.text "../x") ⟨.working, ["out", "..", "x.md"]⟩ ∧
      ¬bareDisk.ChangesInside {} (.ofString "out") [.text "../x"] climbedDisk := by
  have hrender : (definitionAt {} 0 [] climbing).render {} (some {}) = .ok climbingText := by
    decide +kernel
  have hpublish : publish {} {} .disk (.ofString "out") ⟨bareDisk, [], []⟩
      (definitionAt {} 0 [] climbing) = _ :=
    publish_eq rfl hrender writeDocument_climbing
  have hwalk := (walk_definitionAt {} 0 (publish {} {} .disk (.ofString "out")) ⟨bareDisk, [], []⟩
    [] (List.forall_mem_nil _) []).1 (congrArg Visit.failure hpublish)
  rw [hpublish, Cursor.walk_nil] at hwalk
  refine ⟨congrArg Walk.failure hwalk, congrArg Walk.state hwalk, ?_, ?_⟩
  · exact fun h => absurd h.1 (by decide)
  · intro hinside
    rcases hinside ["w", "x.md"] (Option.some_ne_none _) with
      ⟨-, hfile, -⟩ | ⟨location, hlead, hname⟩
    · cases hfile
    · obtain ⟨name, -, hplace⟩ := hname
      have hlocate : climbedDisk.locate (.ofString "out") = .ok ["w", "out"] := rfl
      rw [← Except.ok.inj (hlocate.symm.trans hlead.1)] at hplace
      exact absurd (congrArg List.length hplace) (by simp)

end ProtocolPages
