import ProtocolPages.Proofs.DiskWrites

/-!
# Reading between writes

On a sound disk whatever is there stands in a folder. A file that is no document then reads the same
before and after documents are written, and a path without double dots that led nowhere still leads
to no file.
-/

namespace ProtocolPages.Disk

variable {d d' : Disk} {path folder : Path} {location here : Location}

/-- Whatever the disk holds stands in a folder, and the working folder is there. -/
structure Sound (d : Disk) : Prop where
  working : d.entry? d.working = some .folder
  parent : ∀ {l : Location} {name : String}, (d.entry? (l ++ [name])).isSome = true →
    d.entry? l = some .folder

/-- A disk is sound if each of its entries stands in a folder. -/
theorem sound_of_entries (hworking : d.entry? d.working = some .folder)
    (hentries : ∀ entry ∈ d.entries, d.entry? entry.1.dropLast = some .folder) : d.Sound where
  working := hworking
  parent {l name} hsome := by
    have hlookup : d.entry? (l ++ [name]) = d.entries.lookup (l ++ [name]) := by
      unfold entry?
      simp
    obtain ⟨entry, hentry⟩ := Option.isSome_iff_exists.mp hsome
    obtain ⟨before, after, heq, -⟩ := List.lookup_eq_some_iff.mp (hlookup.symm.trans hentry)
    have hfolder := hentries (l ++ [name], entry) (by rw [heq]; simp)
    rwa [List.dropLast_concat] at hfolder

namespace Sound

/-- Everything on the way to what a disk holds is a folder. -/
theorem folder_of_append (h : d.Sound) {more : Location} (hne : more ≠ [])
    (hsome : (d.entry? (here ++ more)).isSome = true) : d.entry? here = some .folder := by
  induction more using List.reverseRecOn with
  | nil => exact absurd rfl hne
  | append_singleton init name ih =>
    rw [← List.append_assoc] at hsome
    have hfolder := h.parent hsome
    by_cases hinit : init = []
    · rwa [hinit, List.append_nil] at hfolder
    · exact ih hinit (by rw [hfolder]; rfl)

/-- The location one step up is there. -/
theorem isSome_dropLast (h : d.Sound) (hsome : (d.entry? here).isSome = true) :
    (d.entry? here.dropLast).isSome = true := by
  rcases List.eq_nil_or_concat here with rfl | ⟨init, name, rfl⟩
  · exact hsome
  · rw [List.concat_eq_append] at hsome ⊢
    rw [List.dropLast_concat, h.parent hsome]
    rfl

/-- Names lead to something that is there. -/
theorem isSome_of_enter (h : d.Sound) {names : List String}
    (hsome : (d.entry? here).isSome = true) (henter : d.enter here names = .ok location) :
    (d.entry? location).isSome = true := by
  induction names generalizing here with
  | nil => exact Except.ok.inj henter ▸ hsome
  | cons name rest ih =>
    simp only [enter] at henter
    split at henter
    · split at henter
      · exact ih (h.isSome_dropLast hsome) henter
      · split at henter
        · cases henter
        · split at henter
          · next hinner => exact ih hinner henter
          · cases henter
    · cases henter
    · cases henter

/-- Paths lead to something that is there. -/
theorem isSome_of_locate (h : d.Sound) (hlocate : d.locate path = .ok location) :
    (d.entry? location).isSome = true := by
  unfold locate at hlocate
  split at hlocate
  · cases hlocate
  · refine h.isSome_of_enter ?_ hlocate
    unfold origin
    split
    · rw [h.working]
      rfl
    · rfl

/-- Names without double dots lead to the location that they spell, on every disk on which it is
there. -/
theorem enter_of_isSome (h : d.Sound) {names : List String} (hnames : ".." ∉ names)
    (henter : d'.enter here names = .ok location) (hsome : (d.entry? location).isSome = true) :
    location = here ++ names ∧ d.enter here names = .ok location := by
  induction names generalizing here with
  | nil =>
    cases henter
    exact ⟨(List.append_nil _).symm, rfl⟩
  | cons name rest ih =>
    obtain ⟨hname, hrest⟩ : name ≠ ".." ∧ ".." ∉ rest := by
      rw [List.mem_cons, not_or] at hnames
      exact ⟨Ne.symm hnames.1, hnames.2⟩
    simp only [enter] at henter ⊢
    split at henter
    · rw [if_neg hname] at henter
      split at henter
      · cases henter
      · next hshort =>
        split at henter
        · obtain ⟨hlocation, hthere⟩ := ih hrest henter
          rw [List.append_assoc, List.singleton_append] at hlocation
          refine ⟨hlocation, ?_⟩
          subst hlocation
          have hinner : (d.entry? (here ++ [name])).isSome = true := by
            by_cases hnil : rest = []
            · rwa [hnil] at hsome
            · rw [h.folder_of_append hnil (by simpa using hsome)]
              rfl
          rw [h.parent hinner]
          simp [hname, hshort, hinner, hthere]
        · cases henter
    · cases henter
    · cases henter

/-- Paths without double dots that lead to something from before led there before. -/
theorem locate_of_isSome (h : d.Sound) (hgrows : Grows d d') (hnames : ".." ∉ path.parts)
    (hlocate : d'.locate path = .ok location) (hsome : (d.entry? location).isSome = true) :
    d.locate path = .ok location := by
  unfold locate at hlocate ⊢
  split at hlocate
  · cases hlocate
  · next hshort =>
    rw [hgrows.origin_eq] at hlocate
    rw [if_neg hshort]
    exact (h.enter_of_isSome hnames hlocate hsome).2

end Sound

/-- What is read is the file that the path leads to. -/
theorem read_eq_ok {bytes : ByteArray} (h : d.read path = .ok bytes) :
    ∃ l, d.locate path = .ok l ∧ d.entry? l = some (.file bytes) := by
  obtain ⟨l, hl, hread⟩ := bind_eq_ok_iff.mp h
  refine ⟨l, hl, ?_⟩
  split at hread
  · next hentry =>
    cases hread
    exact hentry
  · cases hread
  · cases hread

/-- A file that cannot be read for a run is refused, unless its path cannot be used at all. -/
theorem readFile_eq_error {failure : Failure} (h : d.readFile path = .error failure) :
    (∃ e, failure = .storage e) ∨ unusable? path = some failure := by
  unfold readFile at h
  split at h
  · next hpath =>
    cases h
    exact Or.inr hpath
  · cases hread : d.read path with
    | error refusal =>
      rw [hread] at h
      cases h
      exact Or.inl ⟨_, rfl⟩
    | ok bytes =>
      rw [hread] at h
      cases h

/-- A path that cannot be used cannot be read. -/
theorem readFile_of_unusable {failure : Failure} (h : unusable? path = some failure) :
    d.readFile path = .error failure := by
  rw [readFile, h]

/-- A path is unusable if it cannot be encoded or holds the zero character. -/
theorem unusable?_cases {failure : Failure} (h : unusable? path = some failure) :
    failure = .unencodable ∨ failure = .zeroInPath := by
  unfold unusable? at h
  split at h
  · exact Or.inl (Option.some.inj h).symm
  · split at h
    · exact Or.inr (Option.some.inj h).symm
    · cases h

/-- Reading a path after documents were written comes to the same as before, or is refused both
times. The path must not lead to a document; if it goes up by double dots, it must have led
somewhere from the start. -/
theorem Accepts.read_eq {pages : List Page} (h : d.Accepts folder pages)
    (hslash : ∀ page ∈ pages, '/' ∉ page.1.toList) (hsound : d.Sound)
    (hapart : ∀ page ∈ pages, (d.writeDocuments folder pages).locate (folder.file page.1) ≠
      (d.writeDocuments folder pages).locate path)
    (hsteady : ".." ∉ path.parts ∨ ∃ l, d.locate path = .ok l) :
    (d.writeDocuments folder pages).read path = d.read path ∨
      ∃ refusal refusal', d.read path = .error refusal ∧
        (d.writeDocuments folder pages).read path = .error refusal' := by
  obtain ⟨location, -, hfiles, hpaths⟩ := h.filesAfter hslash
  have hgrows := h.grows
  have hkept : ∀ l, (d.writeDocuments folder pages).locate path = .ok l → ∀ bytes,
      Disk.entry? (d.writeDocuments folder pages) l = some (.file bytes) ↔
        d.entry? l = some (.file bytes) := by
    intro l hl
    refine hfiles.apart_iff ?_
    rintro page hpage rfl
    exact hapart page hpage ((hpaths page hpage).trans hl.symm)
  cases hlocate : d.locate path with
  | ok l =>
    have hlater := hgrows.locate hlocate
    left
    simp only [read, hlocate, hlater, Bind.bind, Except.bind]
    obtain ⟨entry, hentry⟩ := Option.isSome_iff_exists.mp (hsound.isSome_of_locate hlocate)
    cases entry with
    | folder => rw [hentry, hgrows.folder hentry]
    | file bytes => rw [hentry, (hkept l hlater bytes).mpr hentry]
  | error refusal =>
    right
    have hnames : ".." ∉ path.parts := hsteady.resolve_right (by simp [hlocate])
    cases hread : (d.writeDocuments folder pages).read path with
    | error refusal' =>
      refine ⟨refusal, refusal', ?_, rfl⟩
      simp only [read, hlocate, Bind.bind, Except.bind]
    | ok bytes =>
      -- A file that can be read now was there before, and the path led to it.
      obtain ⟨l, hl, hentry⟩ := read_eq_ok hread
      have hold := (hkept l hl bytes).mp hentry
      have hthere := hsound.locate_of_isSome hgrows hnames hl (by rw [hold]; rfl)
      rw [hlocate] at hthere
      cases hthere

end ProtocolPages.Disk
