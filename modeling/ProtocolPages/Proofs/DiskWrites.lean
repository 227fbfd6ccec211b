import ProtocolPages.Proofs.FileNames
import ProtocolPages.Proofs.Sequence
import ProtocolPages.Storage.Disk
import Mathlib.Data.List.Induction

/-!
# Writing documents to disks

Making folders and writing files never takes anything off a disk, and no folder becomes a file or
the other way round. A path that leads somewhere therefore leads there for good. This is what lets
the folder of the documents be found once: every document that is written lands right inside it, and
the files of the disk afterwards can be told from the list of documents alone.
-/

namespace ProtocolPages

namespace Disk

variable {d d' d'' : Disk} {path folder : Path} {location here : Location} {name : String}

/-- What a location holds after something was put on the disk. -/
theorem entry?_put (h : location ≠ []) (entry : DiskEntry) (l : Location) :
    entry? (d.put location entry) l = if l = location then some entry else d.entry? l := by
  unfold entry? put
  cases l with
  | nil => simp [Ne.symm h]
  | cons first rest => exact Ordered.lookup_put _ _ _ _

/-! ## Growth -/

/-- The disk has grown: what was there is still there and of the same kind. -/
structure Grows (d d' : Disk) : Prop where
  working_eq : d'.working = d.working
  folder : ∀ {l : Location}, d.entry? l = some .folder → d'.entry? l = some .folder
  file : ∀ {l : Location} {bytes : ByteArray}, d.entry? l = some (.file bytes) →
    ∃ bytes', d'.entry? l = some (.file bytes')

/-- Folders are all that was added. -/
structure AddsFolders (d d' : Disk) : Prop where
  working_eq : d'.working = d.working
  kept : ∀ {l : Location} {entry : DiskEntry}, d.entry? l = some entry → d'.entry? l = some entry
  file : ∀ {l : Location} {bytes : ByteArray}, d'.entry? l = some (.file bytes) →
    d.entry? l = some (.file bytes)

theorem AddsFolders.refl (d : Disk) : AddsFolders d d :=
  ⟨rfl, id, id⟩

theorem AddsFolders.trans (h : AddsFolders d d') (h' : AddsFolders d' d'') : AddsFolders d d'' :=
  ⟨h'.working_eq.trans h.working_eq, fun hl => h'.kept (h.kept hl), fun hl => h.file (h'.file hl)⟩

/-- A disk that gets more folders grows. -/
theorem AddsFolders.grows (h : AddsFolders d d') : Grows d d' :=
  ⟨h.working_eq, h.kept, fun {_ bytes} hl => ⟨bytes, h.kept hl⟩⟩

theorem Grows.refl (d : Disk) : Grows d d :=
  (AddsFolders.refl d).grows

theorem Grows.trans (h : Grows d d') (h' : Grows d' d'') : Grows d d'' where
  working_eq := h'.working_eq.trans h.working_eq
  folder hl := h'.folder (h.folder hl)
  file hl := by
    obtain ⟨bytes, hbytes⟩ := h.file hl
    exact h'.file hbytes

/-- Something stays where something was. -/
theorem Grows.isSome (h : Grows d d') (hl : (d.entry? location).isSome = true) :
    (d'.entry? location).isSome = true := by
  obtain ⟨entry, hentry⟩ := Option.isSome_iff_exists.mp hl
  cases entry with
  | folder => rw [h.folder hentry]; rfl
  | file bytes =>
    obtain ⟨bytes', hbytes'⟩ := h.file hentry
    rw [hbytes']
    rfl

/-- A new folder is added where nothing was. -/
theorem addsFolders_put (hne : location ≠ []) (h : d.entry? location = none) :
    AddsFolders d (d.put location .folder) where
  working_eq := rfl
  kept {l entry} hl := by
    rw [entry?_put hne, if_neg, hl]
    rintro rfl
    rw [h] at hl
    cases hl
  file {l bytes} hl := by
    rw [entry?_put hne] at hl
    split at hl
    · cases hl
    · exact hl

/-- A file may be put wherever there is no folder. -/
theorem grows_put_file (hne : location ≠ []) (h : d.entry? location ≠ some .folder)
    (bytes : ByteArray) : Grows d (d.put location (.file bytes)) where
  working_eq := rfl
  folder {l} hl := by
    rw [entry?_put hne, if_neg, hl]
    rintro rfl
    exact h hl
  file {l _} hl := by
    rw [entry?_put hne]
    split
    · exact ⟨bytes, rfl⟩
    · exact ⟨_, hl⟩

/-! ## Following paths -/

/-- Names are walked in two parts. -/
theorem enter_append (d : Disk) (here : Location) (names more : List String) :
    d.enter here (names ++ more) = d.enter here names >>= fun there => d.enter there more := by
  induction names generalizing here with
  | nil => rfl
  | cons name rest ih =>
    simp only [List.cons_append, enter]
    split
    · split
      · exact ih _
      · split
        · rfl
        · split
          · exact ih _
          · rfl
    · rfl
    · rfl

/-- A name in a folder leads to what stands there. -/
theorem enter_name (hfolder : d.entry? here = some .folder) (hname : name ≠ "..")
    (hshort : ¬maxNameBytes < Text.nameSize name)
    (hsome : (d.entry? (here ++ [name])).isSome = true) :
    d.enter here [name] = .ok (here ++ [name]) := by
  simp [enter, hfolder, hname, hshort, hsome]

/-- Names that lead somewhere lead there on a disk that has grown. -/
theorem Grows.enter (h : Grows d d') {names : List String} {there : Location}
    (henter : d.enter here names = .ok there) : d'.enter here names = .ok there := by
  induction names generalizing here with
  | nil => exact henter
  | cons name rest ih =>
    simp only [Disk.enter] at henter ⊢
    split at henter
    · next hfolder =>
      rw [h.folder hfolder]
      dsimp only
      split at henter
      · next hup => rw [if_pos hup]; exact ih henter
      · next hup =>
        rw [if_neg hup]
        split at henter
        · cases henter
        · next hshort =>
          rw [if_neg hshort]
          split at henter
          · next hsome => rw [if_pos (h.isSome hsome)]; exact ih henter
          · cases henter
    · cases henter
    · cases henter

/-- A path starts at the same location on a disk that has grown. -/
theorem Grows.origin_eq (h : Grows d d') (path : Path) : d'.origin path = d.origin path := by
  unfold origin
  split
  · exact h.working_eq
  · rfl

/-- A path that leads somewhere leads there on a disk that has grown. -/
theorem Grows.locate (h : Grows d d') (hlocate : d.locate path = .ok location) :
    d'.locate path = .ok location := by
  unfold Disk.locate at hlocate ⊢
  split at hlocate
  · cases hlocate
  · next hshort =>
    rw [if_neg hshort, h.origin_eq]
    exact h.enter hlocate

/-- How the last name of a path is found in its folder. -/
theorem locateLast_eq_some (h : d.locateLast path = .ok (here, some name)) :
    isTooLong path = false ∧ (∃ init, path.parts = init ++ [name] ∧
      d.enter (d.origin path) init = .ok here) ∧
    d.entry? here = some .folder ∧ name ≠ ".." ∧ ¬maxNameBytes < Text.nameSize name := by
  unfold locateLast at h
  split at h
  · cases h
  · next hlong =>
    split at h
    · cases h
    · next last hlast =>
      obtain ⟨folder, hfolder, h⟩ := bind_eq_ok_iff.mp h
      split at h
      · next hentry =>
        split at h
        · cases h
        · next hup =>
          split at h
          · cases h
          · next hshort =>
            cases h
            have hparts := List.dropLast_append_getLast? name hlast
            exact ⟨eq_false_of_ne_true hlong, ⟨_, hparts.symm, hfolder⟩, hentry, hup,
              hshort⟩
      · cases h

/-- A path whose last name stands in its folder leads to it. -/
theorem locate_of_locateLast (h : d.locateLast path = .ok (here, some name))
    (hgrows : Grows d d') (hsome : (d'.entry? (here ++ [name])).isSome = true) :
    d'.locate path = .ok (here ++ [name]) := by
  obtain ⟨hlong, ⟨init, hparts, henter⟩, hfolder, hup, hshort⟩ := locateLast_eq_some h
  have hinit : d'.enter (d'.origin path) init = .ok here := by
    rw [hgrows.origin_eq]
    exact hgrows.enter henter
  rw [Disk.locate, hlong, if_neg Bool.false_ne_true, hparts, enter_append, hinit]
  exact enter_name (hgrows.folder hfolder) hup hshort hsome

/-- The path leads to its last name, in the folder that the names before it lead to. -/
structure LeadsToName (d : Disk) (path : Path) (here : Location) (last : String) : Prop where
  before : d.enter (d.origin path) path.parts.dropLast = .ok here
  last_eq : path.parts.getLast? = some last
  locate_eq : d.locate path = .ok (here ++ [last])

/-- A path leads to the same name after the disk has grown. -/
theorem Grows.leadsToName (h : Grows d d') (hleads : LeadsToName d path here name) :
    LeadsToName d' path here name where
  before := by
    rw [h.origin_eq]
    exact h.enter hleads.before
  last_eq := hleads.last_eq
  locate_eq := h.locate hleads.locate_eq

/-- The path leads to a folder. -/
def LeadsToFolder (d : Disk) (path : Path) (location : Location) : Prop :=
  d.locate path = .ok location ∧ d.entry? location = some .folder

/-- A path that leads to a folder does so on a disk that has grown. -/
theorem Grows.leadsToFolder (h : Grows d d') (hleads : LeadsToFolder d path location) :
    LeadsToFolder d' path location :=
  ⟨h.locate hleads.1, h.folder hleads.2⟩

/-! ## Making folders -/

/-- A folder is made where nothing was, and the path then leads to it. Nothing else changes. -/
theorem makeFolder_eq_ok (h : d.makeFolder path = .ok d') :
    AddsFolders d d' ∧ ∃ location, LeadsToFolder d' path location ∧
      ∀ l, l ≠ location → d'.entry? l = d.entry? l := by
  unfold makeFolder at h
  obtain ⟨⟨here, last⟩, hlast, h⟩ := bind_eq_ok_iff.mp h
  cases last with
  | none => cases h
  | some name =>
    dsimp only at h
    split at h
    · cases h
    · next hnone =>
      cases h
      have hne : here ++ [name] ≠ [] := by simp
      have hadds := addsFolders_put hne (Option.not_isSome_iff_eq_none.mp hnone)
      have hmade : entry? (d.put (here ++ [name]) .folder) (here ++ [name]) = some .folder := by
        rw [entry?_put hne, if_pos rfl]
      have hleads := locate_of_locateLast hlast hadds.grows (by rw [hmade]; rfl)
      refine ⟨hadds, here ++ [name], ⟨hleads, hmade⟩, fun l hl => ?_⟩
      rw [entry?_put hne, if_neg hl]

/-- A folder that is ensured is there. -/
theorem ensureFolder_eq_ok (h : d.ensureFolder path = .ok d') :
    AddsFolders d d' ∧ ∃ location, LeadsToFolder d' path location := by
  unfold ensureFolder at h
  split at h
  · next made hmade =>
    cases h
    obtain ⟨hadds, location, hleads, -⟩ := makeFolder_eq_ok hmade
    exact ⟨hadds, location, hleads⟩
  · split at h
    · cases h
    · split at h
      · next hfolder =>
        cases h
        refine ⟨.refl d, ?_⟩
        unfold isFolder at hfolder
        split at hfolder
        · next location hlocate => exact ⟨location, hlocate, beq_iff_eq.mp hfolder⟩
        · cases hfolder
      · cases h

/-- Ensuring folders adds nothing but folders, and leads to the last of them unless it is
refused. -/
theorem ensureFolders_adds (d : Disk) (path : Path) :
    AddsFolders d (d.ensureFolders path).1 ∧
      ((d.ensureFolders path).2 = .ok () →
        ∃ location, LeadsToFolder (d.ensureFolders path).1 path location) := by
  fun_induction ensureFolders d path with
  | case1 path made hmade =>
    obtain ⟨hadds, hleads⟩ := ensureFolder_eq_ok hmade
    exact ⟨hadds, fun _ => hleads⟩
  | case2 path _ _ => exact ⟨.refl d, nofun⟩
  | case3 path _ _ _ made e hparents ih =>
    rw [hparents] at ih
    exact ⟨ih.1, nofun⟩
  | case4 path _ _ _ parents hparents made hmade ih =>
    rw [hparents] at ih
    obtain ⟨hadds, hleads⟩ := ensureFolder_eq_ok hmade
    exact ⟨ih.1.trans hadds, fun _ => hleads⟩
  | case5 path _ _ _ made hparents _ _ ih =>
    rw [hparents] at ih
    exact ⟨ih.1, nofun⟩
  | case6 path _ _ _ => exact ⟨.refl d, nofun⟩

/-! ## Writing files -/

/-- A file is written at the location that its path then leads to. -/
theorem write_eq_ok {bytes : ByteArray} (h : d.write path bytes = .ok d') :
    ∃ here name, d.locateLast path = .ok (here, some name) ∧
      d.entry? (here ++ [name]) ≠ some .folder ∧
      d' = d.put (here ++ [name]) (.file bytes) ∧ Grows d d' ∧
      d'.locate path = .ok (here ++ [name]) := by
  unfold write at h
  obtain ⟨⟨here, last⟩, hlast, h⟩ := bind_eq_ok_iff.mp h
  cases last with
  | none => cases h
  | some name =>
    dsimp only at h
    split at h
    · cases h
    · next hentry =>
      cases h
      have hne : here ++ [name] ≠ [] := by simp
      have hfile : d.entry? (here ++ [name]) ≠ some .folder := fun h => hentry (beq_iff_eq.mpr h)
      have hgrows := grows_put_file hne hfile bytes
      have hwritten : entry? (d.put (here ++ [name]) (.file bytes)) (here ++ [name]) =
          some (.file bytes) := by
        rw [entry?_put hne, if_pos rfl]
      exact ⟨here, name, hlast, hfile, rfl, hgrows,
        locate_of_locateLast hlast hgrows (by rw [hwritten]; rfl)⟩

/-- The path of a file that was written leads to its last name. -/
theorem write_leadsToName {bytes : ByteArray} (h : d.write path bytes = .ok d') :
    ∃ here last, d' = d.put (here ++ [last]) (.file bytes) ∧ Grows d d' ∧
      LeadsToName d' path here last := by
  obtain ⟨here, last, hlast, -, hput, hgrows, hlocate⟩ := write_eq_ok h
  obtain ⟨-, ⟨init, hparts, henter⟩, -⟩ := locateLast_eq_some hlast
  refine ⟨here, last, hput, hgrows, ?_, ?_, hlocate⟩
  · rw [hparts, List.dropLast_concat, hgrows.origin_eq]
    exact hgrows.enter henter
  · rw [hparts, List.getLast?_concat]

/-- No file is written where a path leads to a folder. -/
theorem write_ne_ok {bytes : ByteArray} (h : LeadsToFolder d path location) :
    d.write path bytes ≠ .ok d' := by
  intro hwrite
  obtain ⟨here, name, -, -, rfl, hgrows, hlocate⟩ := write_eq_ok hwrite
  obtain ⟨hbefore, hfolder⟩ := hgrows.leadsToFolder h
  obtain rfl : here ++ [name] = location := Except.ok.inj (hlocate.symm.trans hbefore)
  rw [entry?_put (by simp), if_pos rfl] at hfolder
  cases hfolder

/-- A file right inside a folder is written at its name in that folder. -/
theorem write_file_eq_ok {bytes : ByteArray} (hfolder : LeadsToFolder d folder location)
    (h : d.write (folder.file name) bytes = .ok d') :
    d.entry? (location ++ [name]) ≠ some .folder ∧
      d' = d.put (location ++ [name]) (.file bytes) ∧ Grows d d' ∧
      d'.locate (folder.file name) = .ok (location ++ [name]) := by
  obtain ⟨here, last, hlast, hwritten⟩ := write_eq_ok h
  obtain ⟨-, ⟨init, hparts, henter⟩, -⟩ := locateLast_eq_some hlast
  obtain ⟨rfl, hnames⟩ : folder.parts = init ∧ [name] = [last] := List.append_inj' hparts rfl
  obtain rfl : name = last := List.singleton_inj.mp hnames
  have hsame : d.enter (d.origin folder) folder.parts = .ok location := by
    have hlocate := hfolder.1
    unfold Disk.locate at hlocate
    split at hlocate
    · cases hlocate
    · exact hlocate
  obtain rfl : here = location := Except.ok.inj (henter.symm.trans hsame)
  exact hwritten

/-! ## Writing documents -/

/-- What becomes of a document that is to be written into a folder. -/
inductive Filed (d : Disk) (folder : Path) (name text : String) :
    Disk × Except Failure Path → Prop where
  /-- The path of the folder cannot be used. -/
  | unusableFolder {failure : Failure} (hfolder : unusable? folder = some failure) :
      Filed d folder name text (d, .error failure)
  /-- The folder cannot be made. -/
  | unmade {made : Disk} {e : StorageError} (hmade : d.ensureFolders folder = (made, .error e)) :
      Filed d folder name text (made, .error (.storage e))
  /-- The path of the document cannot be used. -/
  | unusableName {made : Disk} {failure : Failure} (hfolder : unusable? folder = none)
      (hmade : d.ensureFolders folder = (made, .ok ()))
      (hname : unusable? (folder.join (.ofString name)) = some failure) :
      Filed d folder name text (made, .error failure)
  /-- The file cannot be opened. -/
  | refused {made : Disk} {refusal : Refusal} {bytes : ByteArray}
      (hmade : d.ensureFolders folder = (made, .ok ()))
      (hwrite : made.write (folder.join (.ofString name)) bytes = .error refusal) :
      Filed d folder name text
        (made, .error (.storage ⟨refusal, folder.join (.ofString name)⟩))
  /-- The file is opened, and the text cannot be encoded. -/
  | emptied {made d' : Disk} (hfolder : unusable? folder = none)
      (hmade : d.ensureFolders folder = (made, .ok ()))
      (hname : unusable? (folder.join (.ofString name)) = none)
      (hcode : Text.encode? text = none)
      (hwrite : made.write (folder.join (.ofString name)) .empty = .ok d') :
      Filed d folder name text (d', .error .unencodable)
  /-- The file is written. -/
  | written {made d' : Disk} (hmade : d.ensureFolders folder = (made, .ok ()))
      (hwrite : made.write (folder.join (.ofString name)) text.toUTF8 = .ok d') :
      Filed d folder name text (d', .ok (folder.join (.ofString name)))

/-- Writing a document comes to one of these cases. -/
theorem filed_writeDocument (d : Disk) (folder : Path) (name text : String) :
    Filed d folder name text (d.writeDocument folder name text) := by
  unfold writeDocument
  split
  · next failure hfolder => exact .unusableFolder hfolder
  · next hfolder =>
    split
    · next made e hmade => exact .unmade hmade
    · next made hmade =>
      dsimp only
      split
      · next failure hname => exact .unusableName hfolder hmade hname
      · next hname =>
        split
        · next refusal hwrite => exact .refused hmade hwrite
        · next d' hwrite =>
          rcases Text.encode?_cases text with hcode | hcode
          · rw [hcode] at hwrite ⊢
            exact .emptied hfolder hmade hname hcode hwrite
          · rw [hcode] at hwrite ⊢
            exact .written hmade hwrite

/-- A document is written by making its folder and then writing its file. -/
theorem writeDocument_eq_ok {text : String} (h : (d.writeDocument folder name text).2 = .ok path) :
    ∃ made, d.ensureFolders folder = (made, .ok ()) ∧
      made.write (folder.join (.ofString name)) text.toUTF8 =
        .ok (d.writeDocument folder name text).1 := by
  have hfiled := filed_writeDocument d folder name text
  generalize d.writeDocument folder name text = outcome at h hfiled ⊢
  cases hfiled with
  | written hmade hwrite => exact ⟨_, hmade, hwrite⟩
  | _ => cases h

/-- A disk grows when a document is written to it. -/
theorem writeDocument_grows {text : String} (h : (d.writeDocument folder name text).2 = .ok path) :
    Grows d (d.writeDocument folder name text).1 := by
  obtain ⟨made, hmade, hwrite⟩ := writeDocument_eq_ok h
  obtain ⟨hadds, -⟩ := ensureFolders_adds d folder
  rw [hmade] at hadds
  obtain ⟨_, _, _, _, _, hgrows, _⟩ := write_eq_ok hwrite
  exact hadds.grows.trans hgrows

/-- A document whose name has no slash lands right inside its folder. Apart from that only folders
are made. -/
theorem writeDocument_lands {text : String} (hslash : '/' ∉ name.toList)
    (h : (d.writeDocument folder name text).2 = .ok path) :
    ∃ made location, AddsFolders d made ∧ LeadsToFolder made folder location ∧
      made.entry? (location ++ [name]) ≠ some .folder ∧
      (d.writeDocument folder name text).1 = made.put (location ++ [name]) (.file text.toUTF8) ∧
      Grows made (d.writeDocument folder name text).1 ∧
      (d.writeDocument folder name text).1.locate (folder.file name) =
        .ok (location ++ [name]) := by
  obtain ⟨made, hmade, hwrite⟩ := writeDocument_eq_ok h
  obtain ⟨hadds, hleads⟩ := ensureFolders_adds d folder
  rw [hmade] at hadds hleads
  obtain ⟨location, hfolder⟩ := hleads rfl
  by_cases hnothing : name = "" ∨ name = "."
  · rw [Path.join_ofString_of_nothing folder hnothing] at hwrite
    exact absurd hwrite (write_ne_ok hfolder)
  · rw [not_or] at hnothing
    rw [Path.join_ofString folder hslash hnothing.1 hnothing.2] at hwrite
    exact ⟨made, location, hadds, hfolder, write_file_eq_ok hfolder hwrite⟩

end Disk

/-- The file name of a document, and its text. -/
abbrev Page := String × String

namespace Disk

/-- Write documents into a folder, one after another. -/
def writeDocuments (d : Disk) (folder : Path) : List Page → Disk
  | [] => d
  | page :: rest => writeDocuments (d.writeDocument folder page.1 page.2).1 folder rest

/-- Each of the documents is accepted when its turn comes. -/
def Accepts (d : Disk) (folder : Path) : List Page → Prop
  | [] => True
  | page :: rest => (∃ path, (d.writeDocument folder page.1 page.2).2 = .ok path) ∧
      Accepts (d.writeDocument folder page.1 page.2).1 folder rest

/-- The files are those from before, with each document at its name in the folder. Of several
documents with one name the last counts. -/
def FilesAfter (d : Disk) (location : Location) (pages : List Page) (d' : Disk) : Prop :=
  ∀ (l : Location) (bytes : ByteArray), d'.entry? l = some (.file bytes) ↔
    (∃ name text, l = location ++ [name] ∧ pages.reverse.lookup name = some text ∧
      bytes = text.toUTF8) ∨
    ((∀ page ∈ pages, l ≠ location ++ [page.1]) ∧ d.entry? l = some (.file bytes))

section Documents

variable {d d' : Disk} {folder : Path} {location : Location} {pages more : List Page} {page : Page}

/-- Documents are written in two goes as in one. -/
theorem writeDocuments_append (d : Disk) (folder : Path) (pages more : List Page) :
    d.writeDocuments folder (pages ++ more) =
      (d.writeDocuments folder pages).writeDocuments folder more := by
  induction pages generalizing d with
  | nil => rfl
  | cons page rest ih => exact ih _

/-- Documents are accepted in two goes as in one. -/
theorem accepts_append (d : Disk) (folder : Path) (pages more : List Page) :
    d.Accepts folder (pages ++ more) ↔
      d.Accepts folder pages ∧ (d.writeDocuments folder pages).Accepts folder more := by
  induction pages generalizing d with
  | nil => simp [Accepts, writeDocuments]
  | cons page rest ih => simp only [List.cons_append, Accepts, writeDocuments, ih, and_assoc]

/-- A disk grows when documents are written to it. -/
theorem Accepts.grows (h : d.Accepts folder pages) : Grows d (d.writeDocuments folder pages) := by
  induction pages generalizing d with
  | nil => exact .refl d
  | cons page rest ih =>
    obtain ⟨⟨path, hpath⟩, hrest⟩ := h
    exact (writeDocument_grows hpath).trans (ih hrest)

/-- Where no document is written the files stay as they are. -/
theorem filesAfter_nil (d : Disk) (location : Location) : FilesAfter d location [] d := by
  simp [FilesAfter]

/-- Where no document stands, there is a file exactly if there was one before. -/
theorem FilesAfter.apart_iff (h : FilesAfter d location pages d') {l : Location}
    (hapart : ∀ page ∈ pages, l ≠ location ++ [page.1]) (bytes : ByteArray) :
    d'.entry? l = some (.file bytes) ↔ d.entry? l = some (.file bytes) := by
  rw [h l bytes]
  constructor
  · rintro (⟨name, text, rfl, hlookup, -⟩ | ⟨-, hold⟩)
    · obtain ⟨_, _, heq, -⟩ := List.lookup_eq_some_iff.mp hlookup
      have hpage : (name, text) ∈ pages := by
        rw [← List.mem_reverse, heq]
        simp
      exact absurd rfl (hapart (name, text) hpage)
    · exact hold
  · exact fun hold => Or.inr ⟨hapart, hold⟩

/-- One more document replaces the file of its name; making folders changes no file. -/
theorem FilesAfter.concat {made : Disk} (h : FilesAfter d location pages d')
    (hadds : AddsFolders d' made) (page : Page) :
    FilesAfter d location (pages ++ [page])
      (made.put (location ++ [page.1]) (.file page.2.toUTF8)) := by
  obtain ⟨last, text⟩ := page
  intro l bytes
  have hsame : made.entry? l = some (.file bytes) ↔ d'.entry? l = some (.file bytes) :=
    ⟨hadds.file, hadds.kept⟩
  rw [entry?_put (by simp), List.reverse_append, List.reverse_singleton, List.singleton_append]
  by_cases hl : l = location ++ [last]
  · subst hl
    rw [if_pos rfl]
    constructor
    · intro hfile
      cases hfile
      exact Or.inl ⟨last, text, rfl, List.lookup_cons_self, rfl⟩
    · rintro (⟨name, found, hname, hlookup, rfl⟩ | ⟨hapart, -⟩)
      · obtain rfl : last = name := List.singleton_inj.mp (List.append_cancel_left hname)
        rw [List.lookup_cons_self] at hlookup
        rw [Option.some.inj hlookup]
      · exact absurd rfl (hapart (last, text) (by simp))
  · rw [if_neg hl, hsame, h l bytes]
    have hother {name : String} (hname : l = location ++ [name]) :
        ((last, text) :: pages.reverse).lookup name = pages.reverse.lookup name := by
      have hne : (name == last) = false := by
        rw [beq_eq_false_iff_ne]
        rintro rfl
        exact hl hname
      simp [List.lookup_cons, hne]
    refine or_congr ?_ (and_congr_left fun _ => ?_)
    · constructor
      · rintro ⟨name, found, hname, hlookup, hbytes⟩
        exact ⟨name, found, hname, (hother hname).trans hlookup, hbytes⟩
      · rintro ⟨name, found, hname, hlookup, hbytes⟩
        exact ⟨name, found, hname, (hother hname).symm.trans hlookup, hbytes⟩
    · simp [or_imp, forall_and, hl]

/-- The files after documents were written into a folder. -/
theorem Accepts.filesAfter (h : d.Accepts folder pages)
    (hslash : ∀ page ∈ pages, '/' ∉ page.1.toList) :
    ∃ location,
      (pages ≠ [] → LeadsToFolder (d.writeDocuments folder pages) folder location) ∧
      FilesAfter d location pages (d.writeDocuments folder pages) ∧
      ∀ page ∈ pages, (d.writeDocuments folder pages).locate (folder.file page.1) =
        .ok (location ++ [page.1]) := by
  induction pages using List.reverseRecOn with
  | nil => exact ⟨[], by simp, filesAfter_nil d [], by simp⟩
  | append_singleton pages page ih =>
    obtain ⟨hbefore, ⟨path, hpath⟩, -⟩ := (accepts_append d folder pages [page]).mp h
    obtain ⟨hslashes, hslash⟩ := List.forall_mem_append.mp hslash
    obtain ⟨made, location, hadds, hfolder, -, hwritten, hgrows, hlocate⟩ :=
      writeDocument_lands (hslash page List.mem_cons_self) hpath
    obtain ⟨location', hfolder', hfiles, hpaths⟩ := ih hbefore hslashes
    have hfinal : d.writeDocuments folder (pages ++ [page]) =
        made.put (location ++ [page.1]) (.file page.2.toUTF8) := by
      rw [writeDocuments_append, ← hwritten]
      rfl
    rw [hwritten] at hgrows hlocate
    -- The folder is where it was for the documents before, if there are any.
    have hsame : FilesAfter d location pages (d.writeDocuments folder pages) ∧
        ∀ page ∈ pages, (d.writeDocuments folder pages).locate (folder.file page.1) =
          .ok (location ++ [page.1]) := by
      by_cases hnil : pages = []
      · subst hnil
        exact ⟨filesAfter_nil d location, by simp⟩
      · have hkept := (hadds.grows.leadsToFolder (hfolder' hnil)).1
        obtain rfl : location' = location := Except.ok.inj (hkept.symm.trans hfolder.1)
        exact ⟨hfiles, hpaths⟩
    refine ⟨location, fun _ => ?_, ?_, ?_⟩
    · rw [hfinal]
      exact hgrows.leadsToFolder hfolder
    · rw [hfinal]
      exact hsame.1.concat hadds page
    · rw [hfinal, List.forall_mem_append]
      refine ⟨fun other hother => ?_, fun other hother => ?_⟩
      · exact hgrows.locate (hadds.grows.locate (hsame.2 other hother))
      · obtain rfl := List.mem_singleton.mp hother
        exact hlocate

end Documents

end Disk

end ProtocolPages
