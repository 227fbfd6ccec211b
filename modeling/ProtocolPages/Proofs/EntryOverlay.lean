import ProtocolPages.Proofs.Shadowing

/-!
# Settings as an overlay

The entries for settings are laid over the defaults one by one. Where names do not repeat, the
result can be said without going through the entries in order: each setting has the text of its
entry, or its default if it has none. The order only shows in a rejection, which names the first
entry for a setting that holds no text. Entries that are for no setting never show.
-/

namespace ProtocolPages

/-! ## Entries with distinct names -/

section Entries

variable {ν : Type} {entries others : List (String × ν)}

/-- Where names do not repeat, an entry is found under its name. -/
theorem lookup_eq_some_iff_mem (h : (entries.map Prod.fst).Nodup) {key : String} {value : ν} :
    entries.lookup key = some value ↔ (key, value) ∈ entries := by
  constructor
  · intro hfound
    obtain ⟨before, after, rfl, -⟩ := List.lookup_eq_some_iff.mp hfound
    simp
  · intro hmem
    obtain ⟨before, after, rfl⟩ := List.append_of_mem hmem
    refine List.lookup_eq_some_iff.mpr ⟨before, after, rfl, fun entry hentry => ?_⟩
    rw [List.map_append, List.map_cons, List.nodup_append] at h
    have hne := h.2.2 entry.1 (List.mem_map_of_mem hentry) key List.mem_cons_self
    exact bne_iff_ne.mpr hne.symm

/-- Where names do not repeat, the order of entries makes no difference to what is found. -/
theorem lookup_of_perm (h : (entries.map Prod.fst).Nodup) (hperm : entries.Perm others)
    (key : String) : entries.lookup key = others.lookup key := by
  have hothers : (others.map Prod.fst).Nodup := (hperm.map Prod.fst).nodup_iff.mp h
  apply Option.ext
  intro value
  rw [lookup_eq_some_iff_mem h, lookup_eq_some_iff_mem hothers, hperm.mem_iff]

end Entries

namespace Settings

/-! ## Entries for settings -/

/-- The name is that of a setting. -/
def IsName (key : String) : Prop :=
  key ∈ Field.all.map Field.name

instance (key : String) : Decidable (IsName key) :=
  inferInstanceAs (Decidable (key ∈ Field.all.map Field.name))

/-- The entry is for a setting and holds no text. -/
def Rejected (entry : String × Value) : Prop :=
  IsName entry.1 ∧ entry.2.text? = none

instance (entry : String × Value) : Decidable (Rejected entry) :=
  inferInstanceAs (Decidable (IsName entry.1 ∧ entry.2.text? = none))

/-- The text that the entries hold under a name, or the given one if there is none. -/
def entryText (entries : List (String × Value)) (key default : String) : String :=
  ((entries.lookup key).bind Value.text?).getD default

/-- The settings that entries describe: for each setting the text under its name, or the default. -/
def described (entries : List (String × Value)) : Settings where
  wikiBase := entryText entries "wiki_base" "https://github.com/kinnay/NintendoClients/wiki"
  protocolsPage := entryText entries "protocols_page" "NEX-Protocols"
  commonTypesPage := entryText entries "common_types_page" "NEX-Common-Types"
  rootRecordType := entryText entries "root_record_type" "Structure"
  unknownProtocolId := entryText entries "unknown_protocol_id" "Unknown ID"
  unknownProtocolPrefix := entryText entries "unknown_protocol_prefix" "Unknown Protocol"
  returnValueMarker := entryText entries "return_value_marker" "%retval%"
  stubLanguage := entryText entries "stub_language" "rust"
  stubAttributes :=
    entryText entries "stub_attributes" "#[derive(Default, EndianRead, EndianWrite)]"
  listStubType := entryText entries "list_stub_type" "NexList"
  dataHolderStubType := entryText entries "data_holder_stub_type" "DataHolder"
  fileExtension := entryText entries "file_extension" ".md"

/-- The settings that entries describe have for each field the text of its last entry. -/
theorem get_described (entries : List (String × Value)) (field : Field) :
    (described entries).get field = entryText entries field.name (get {} field) := by
  cases field <;> rfl

section EntryText

variable {entries : List (String × Value)} {key default : String}

/-- The first entry of a key gives its text. -/
theorem entryText_cons_self (text : String) :
    entryText ((key, .text text) :: entries) key default = text := by
  rw [entryText, List.lookup_cons_self]
  rfl

/-- Entries of other keys are passed over. -/
theorem entryText_cons_of_ne {entry : String × Value} (h : key ≠ entry.1) :
    entryText (entry :: entries) key default = entryText entries key default := by
  rw [entryText, entryText, List.lookup_cons, beq_eq_false_iff_ne.mpr h]

/-- A key without entries has the default. -/
theorem entryText_of_not_mem (h : key ∉ entries.map Prod.fst) :
    entryText entries key default = default := by
  have hnone : entries.lookup key = none := by
    refine List.lookup_eq_none_iff.mpr fun entry hentry => bne_iff_ne.mpr ?_
    rintro rfl
    exact h (List.mem_map_of_mem hentry)
  rw [entryText, hnone]
  rfl

end EntryText

/-- No two settings have the same name. -/
theorem Field.eq_of_name_eq {field other : Field} (h : field.name = other.name) :
    field = other := by
  have hfound := congrArg ofName? h
  rwa [ofName?_name, ofName?_name, Option.some.injEq] at hfound

/-- The name of a field is a name of settings. -/
theorem Field.isName_name (field : Field) : IsName field.name := by
  cases field <;> decide

/-- A name that no setting has is not looked for any further. -/
theorem Field.ofName?_eq_none {key : String} (h : ¬IsName key) : ofName? key = none := by
  refine List.find?_eq_none.mpr fun field hfield hname => h ?_
  exact List.mem_map.mpr ⟨field, hfield, by simpa using hname⟩

/-- What an entry can be: none for a setting, one that is rejected, or a text for a setting. -/
theorem entry_cases (entry : String × Value) :
    ¬IsName entry.1 ∨ Rejected entry ∨ ∃ field text, entry = (Field.name field, .text text) := by
  obtain ⟨key, value⟩ := entry
  by_cases hname : IsName key
  · cases htext : value.text? with
    | none => exact Or.inr (Or.inl ⟨hname, htext⟩)
    | some text =>
      obtain ⟨field, -, rfl⟩ := List.mem_map.mp hname
      cases value with
      | text s => exact Or.inr (Or.inr ⟨field, s, rfl⟩)
      | _ => cases htext
  · exact Or.inl hname

/-! ## One entry after another -/

/-- Values as entries for settings. -/
def toSettings (entries : List (String × Value)) : List (String × Setting) :=
  entries.map fun entry => (entry.1, entry.2.toSetting)

/-- Settings from entries are the defaults with the entries laid over them. -/
theorem ofFields_eq (entries : List (String × Value)) :
    ofFields entries = (overlay {} (toSettings entries)).mapError
      fun defect => .settings ⟨defect, none⟩ := rfl

section Overlay

variable (s : Settings) {entries before after : List (String × Value)} {entry : String × Value}

/-- An entry that names no field has no effect. -/
theorem overlay_cons_of_not_isName (h : ¬IsName entry.1) :
    s.overlay (toSettings (entry :: entries)) = s.overlay (toSettings entries) := by
  simp only [toSettings, List.map_cons, overlay, Field.ofName?_eq_none h]

/-- A text sets its field. -/
theorem overlay_cons_text (field : Field) (text : String) :
    s.overlay (toSettings ((field.name, .text text) :: entries)) =
      (s.set field text).overlay (toSettings entries) := by
  simp only [toSettings, List.map_cons, overlay, Field.ofName?_name, Value.toSetting]

/-- The first entry that is rejected is reported. -/
theorem overlay_cons_of_rejected (h : Rejected entry) :
    s.overlay (toSettings (entry :: entries)) =
      .error (.notText entry.1 entry.2.kindName) := by
  obtain ⟨key, value⟩ := entry
  obtain ⟨hname, htext⟩ := h
  obtain ⟨field, -, rfl⟩ := List.mem_map.mp hname
  have hsetting : value.toSetting = .other value.kindName := by
    cases value with
    | text s => cases htext
    | _ => rfl
  simp only [toSettings, List.map_cons, overlay, Field.ofName?_name, hsetting]

/-- Without an entry to reject, each setting gets the text of its entry and the others stay. -/
theorem overlay_of_accepted (haccepted : ∀ entry ∈ entries, ¬Rejected entry)
    (hkeys : (entries.map Prod.fst).Nodup) :
    ∃ t, s.overlay (toSettings entries) = .ok t ∧
      ∀ field, t.get field = entryText entries field.name (s.get field) := by
  induction entries generalizing s with
  | nil => exact ⟨s, rfl, fun field => rfl⟩
  | cons entry rest ih =>
    obtain ⟨hentry, hrest⟩ := List.forall_mem_cons.mp haccepted
    obtain ⟨hnew, hothers⟩ := List.nodup_cons.mp hkeys
    rcases entry_cases entry with hname | hrejected | ⟨changed, text, rfl⟩
    · obtain ⟨t, ht, hget⟩ := ih s hrest hothers
      refine ⟨t, by rw [overlay_cons_of_not_isName s hname, ht], fun field => ?_⟩
      have hne : field.name ≠ entry.1 := fun heq => hname (heq ▸ field.isName_name)
      rw [hget, entryText_cons_of_ne hne]
    · exact absurd hrejected hentry
    · obtain ⟨t, ht, hget⟩ := ih (s.set changed text) hrest hothers
      refine ⟨t, by rw [overlay_cons_text, ht], fun field => ?_⟩
      rw [hget, get_set]
      by_cases hfield : field = changed
      · -- The name does not come again, so the text stays.
        rw [hfield, if_pos rfl, entryText_of_not_mem hnew, entryText_cons_self]
      · have hne : field.name ≠ changed.name := fun heq => hfield (Field.eq_of_name_eq heq)
        rw [if_neg hfield, entryText_cons_of_ne hne]

/-- The first entry that is rejected is reported, whatever comes behind it. -/
theorem overlay_of_rejected (hbefore : ∀ entry ∈ before, ¬Rejected entry) (h : Rejected entry) :
    s.overlay (toSettings (before ++ entry :: after)) =
      .error (.notText entry.1 entry.2.kindName) := by
  induction before generalizing s with
  | nil => exact overlay_cons_of_rejected s h
  | cons first rest ih =>
    obtain ⟨hfirst, hrest⟩ := List.forall_mem_cons.mp hbefore
    rw [List.cons_append]
    rcases entry_cases first with hname | hrejected | ⟨field, text, rfl⟩
    · rw [overlay_cons_of_not_isName s hname, ih s hrest]
    · exact absurd hrejected hfirst
    · rw [overlay_cons_text, ih _ hrest]

/-- Only the entries for settings count. -/
theorem overlay_filter (entries : List (String × Value)) :
    s.overlay (toSettings (entries.filter fun entry => IsName entry.1)) =
      s.overlay (toSettings entries) := by
  induction entries generalizing s with
  | nil => rfl
  | cons entry rest ih =>
    rcases entry_cases entry with hname | hrejected | ⟨field, text, rfl⟩
    · rw [List.filter_cons_of_neg (by simpa using hname), ih, overlay_cons_of_not_isName s hname]
    · rw [List.filter_cons_of_pos (by simpa using hrejected.1),
        overlay_cons_of_rejected s hrejected,
        overlay_cons_of_rejected s hrejected]
    · rw [List.filter_cons_of_pos (by simpa using field.isName_name), overlay_cons_text,
        overlay_cons_text, ih]

end Overlay

/-! ## The settings of an object -/

/-- What an object is rejected with because of one of its fields. -/
def rejection (entry : String × Value) : Failure :=
  .settings ⟨.notText entry.1 entry.2.kindName, none⟩

/-- A rejection names the key and the kind of its value. -/
theorem message?_rejection (entry : String × Value) :
    (rejection entry).message? =
      some ("'" ++ entry.1 ++ "' must be a string, got " ++ entry.2.kindName) := rfl

section OfFields

variable {entries others before after : List (String × Value)} {entry : String × Value}

/-- Fields that are not rejected give the settings that they describe. -/
theorem ofFields_of_accepted (haccepted : ∀ entry ∈ entries, ¬Rejected entry)
    (hkeys : (entries.map Prod.fst).Nodup) : ofFields entries = .ok (described entries) := by
  obtain ⟨t, ht, hget⟩ := overlay_of_accepted {} haccepted hkeys
  obtain rfl : t = described entries := ext_get fun field => by rw [hget, get_described]
  rw [ofFields_eq, ht]
  rfl

/-- Otherwise the first field that is rejected is reported. -/
theorem ofFields_of_rejected (hbefore : ∀ entry ∈ before, ¬Rejected entry) (h : Rejected entry) :
    ofFields (before ++ entry :: after) = .error (rejection entry) := by
  rw [ofFields_eq, overlay_of_rejected {} hbefore h]
  rfl

/-- Settings are had exactly from fields that are not rejected, and are those described. -/
theorem ofFields_eq_ok_iff (hkeys : (entries.map Prod.fst).Nodup) {s : Settings} :
    ofFields entries = .ok s ↔ (∀ entry ∈ entries, ¬Rejected entry) ∧ s = described entries := by
  constructor
  · intro hok
    have haccepted : ∀ entry ∈ entries, ¬Rejected entry := by
      by_contra hsome
      obtain ⟨before, entry, after, rfl, hbefore, hrejected⟩ := exists_first_not hsome
      rw [ofFields_of_rejected hbefore (not_not.mp hrejected)] at hok
      cases hok
    rw [ofFields_of_accepted haccepted hkeys] at hok
    exact ⟨haccepted, (Except.ok.inj hok).symm⟩
  · rintro ⟨haccepted, rfl⟩
    exact ofFields_of_accepted haccepted hkeys

/-- A rejection is that of the first field that is rejected. -/
theorem ofFields_eq_error_iff (hkeys : (entries.map Prod.fst).Nodup) {failure : Failure} :
    ofFields entries = .error failure ↔ ∃ before entry after, entries = before ++ entry :: after ∧
      (∀ earlier ∈ before, ¬Rejected earlier) ∧ Rejected entry ∧ failure = rejection entry := by
  constructor
  · intro herror
    have hsome : ¬∀ entry ∈ entries, ¬Rejected entry := by
      intro haccepted
      rw [ofFields_of_accepted haccepted hkeys] at herror
      cases herror
    obtain ⟨before, entry, after, rfl, hbefore, hrejected⟩ := exists_first_not hsome
    rw [ofFields_of_rejected hbefore (not_not.mp hrejected)] at herror
    exact ⟨before, entry, after, rfl, hbefore, not_not.mp hrejected, (Except.error.inj herror).symm⟩
  · rintro ⟨before, entry, after, rfl, hbefore, hrejected, rfl⟩
    exact ofFields_of_rejected hbefore hrejected

/-- Fields that agree in those for settings come to the same. -/
theorem ofFields_of_filter_eq
    (h : others.filter (fun entry => IsName entry.1) = entries.filter fun entry => IsName entry.1) :
    ofFields others = ofFields entries := by
  rw [ofFields_eq, ofFields_eq, ← overlay_filter {} others, h, overlay_filter]

/-- Fields that are not rejected come to the same in any order. -/
theorem ofFields_of_perm (hkeys : (entries.map Prod.fst).Nodup) (hperm : entries.Perm others)
    {s : Settings} (hok : ofFields entries = .ok s) : ofFields others = .ok s := by
  obtain ⟨haccepted, rfl⟩ := (ofFields_eq_ok_iff hkeys).mp hok
  have hothers : (others.map Prod.fst).Nodup := (hperm.map Prod.fst).nodup_iff.mp hkeys
  refine (ofFields_eq_ok_iff hothers).mpr
    ⟨fun entry hentry => haccepted entry (hperm.mem_iff.mpr hentry), ?_⟩
  refine ext_get fun field => ?_
  rw [get_described, get_described, entryText, entryText, lookup_of_perm hkeys hperm]

end OfFields

/-- All settings are named once. -/
theorem nodup_fields (c : Settings) : (c.fields.map Prod.fst).Nodup := by
  have hnames : c.fields.map Prod.fst = Field.all.map Field.name := by
    rw [fields, entries, List.map_map, List.map_map]
    rfl
  rw [hnames]
  decide

/-- **Settings are laid over the defaults, field by field.** An object with distinct names is
rejected exactly if it has a field for a setting that holds no text, and the rejection names the
first such field and the kind of its value. Otherwise each setting has the text of its field, or its
default if there is none. So fields for no setting can be added, removed and moved, the fields of an
object that is not rejected can be reordered, and settings are had back from all their texts in any
order. -/
theorem ofFields_overlays_defaults (entries : List (String × Value))
    (hkeys : (entries.map Prod.fst).Nodup) :
    ((∃ failure, ofFields entries = .error failure) ↔ ∃ entry ∈ entries, Rejected entry) ∧
    (∀ failure, ofFields entries = .error failure ↔
      ∃ before key value after, entries = before ++ (key, value) :: after ∧
        (∀ earlier ∈ before, ¬Rejected earlier) ∧ Rejected (key, value) ∧
        failure = .settings ⟨.notText key value.kindName, none⟩ ∧
        failure.message? = some ("'" ++ key ++ "' must be a string, got " ++ value.kindName)) ∧
    ((∀ entry ∈ entries, ¬Rejected entry) → ofFields entries = .ok (described entries)) ∧
    (∀ others : List (String × Value),
      others.filter (fun entry => IsName entry.1) = entries.filter (fun entry => IsName entry.1) →
        ofFields others = ofFields entries) ∧
    (∀ others s, entries.Perm others → ofFields entries = .ok s → ofFields others = .ok s) ∧
    ∀ (c : Settings) (others : List (String × Value)), others.Perm c.fields →
      ofFields others = .ok c := by
  refine ⟨?_, fun failure => ?_, fun haccepted => ofFields_of_accepted haccepted hkeys,
    fun others => ofFields_of_filter_eq, fun others s hperm => ofFields_of_perm hkeys hperm,
    fun c others hperm => ofFields_of_perm c.nodup_fields hperm.symm c.ofFields_fields⟩
  · constructor
    · rintro ⟨failure, herror⟩
      obtain ⟨before, entry, after, rfl, -, hrejected, -⟩ := (ofFields_eq_error_iff hkeys).mp herror
      exact ⟨entry, List.mem_append_right _ List.mem_cons_self, hrejected⟩
    · rintro ⟨entry, hentry, hrejected⟩
      refine exists_error_iff.mpr fun ⟨s, hok⟩ => ?_
      exact ((ofFields_eq_ok_iff hkeys).mp hok).1 entry hentry hrejected
  · rw [ofFields_eq_error_iff hkeys]
    constructor
    · rintro ⟨before, ⟨key, value⟩, after, hentries, hbefore, hrejected, rfl⟩
      exact ⟨before, key, value, after, hentries, hbefore, hrejected, rfl, message?_rejection _⟩
    · rintro ⟨before, key, value, after, hentries, hbefore, hrejected, rfl, -⟩
      exact ⟨before, (key, value), after, hentries, hbefore, hrejected, rfl⟩

/-- Texts for two settings, and a number under a name that no setting has. -/
def mixedEntries : List (String × Value) :=
  [("stub_language", .text "rs"), ("language", .integer 42), ("wiki_base", .text "w")]

/-- Of the entries, those that name fields are laid over the defaults. -/
theorem mixedEntries_overlaid :
    ofFields mixedEntries = .ok { wikiBase := "w", stubLanguage := "rs" } ∧
    ofFields mixedEntries.reverse = .ok { wikiBase := "w", stubLanguage := "rs" } ∧
    ofFields [("stub_language", .text "rs"), ("wiki_base", .text "w")] =
      .ok { wikiBase := "w", stubLanguage := "rs" } ∧
    ∃ failure, ofFields (mixedEntries ++
        [("file_extension", .null), ("list_stub_type", .boolean true)]) = .error failure ∧
      failure.message? = some "'file_extension' must be a string, got NoneType" := by
  obtain ⟨-, -, haccepted, hfiltered, hreordered, -⟩ :=
    ofFields_overlays_defaults mixedEntries (by decide)
  obtain ⟨-, hrejected, -⟩ := ofFields_overlays_defaults
    (mixedEntries ++ [("file_extension", .null), ("list_stub_type", .boolean true)]) (by decide)
  have hmixed : ofFields mixedEntries = .ok { wikiBase := "w", stubLanguage := "rs" } :=
    haccepted (by decide)
  refine ⟨hmixed, hreordered _ _ (List.reverse_perm _).symm hmixed, ?_, _,
    (hrejected _).mpr ⟨mixedEntries, "file_extension", .null, [("list_stub_type", .boolean true)],
      rfl, by decide, by decide, rfl, rfl⟩, rfl⟩
  exact (hfiltered _ rfl).trans hmixed

end Settings

end ProtocolPages
