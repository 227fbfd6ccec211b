import ProtocolPages.Proofs.Replacements

/-!
# Repeated protocol names

A schema may declare several protocols of one name, and a made-up name may be one that is declared
as well. The documents of a run are collected in a table that is also asked whether a name was there
before. Here the table is accounted for from outside: its names are those of the protocols, each at
its first position; what stands at a name comes from the last protocol that bears it; and the log
has an announcement behind the discovery of each protocol whose name was taken. The proof is a loop
invariant at an arbitrary cut of the schema.
-/

namespace ProtocolPages

/-! ## Writing entries one after another -/

namespace Ordered

variable {κ ν : Type} [DecidableEq κ]

/-- The table after the entries have been written one after another. -/
def putAll (entries : List (κ × ν)) : List (κ × ν) :=
  entries.foldl (fun table entry => put (· == ·) entry.1 entry.2 table) []

/-- The last entry is put last. -/
theorem putAll_concat (entries : List (κ × ν)) (entry : κ × ν) :
    putAll (entries ++ [entry]) = put (· == ·) entry.1 entry.2 (putAll entries) := by
  simp [putAll]

/-- A table holds a key exactly if it is among its keys. -/
theorem holds_iff {table : List (κ × ν)} {key : κ} :
    holds (· == ·) key table = true ↔ key ∈ table.map Prod.fst := by
  simp only [holds, List.any_eq_true, beq_iff_eq, List.mem_map]

/-- Adding a key to the end of a list adds it to the distinct keys if it is new. -/
theorem eraseDups_concat (keys : List κ) (key : κ) :
    (keys ++ [key]).eraseDups = keys.eraseDups ++ if key ∈ keys then [] else [key] := by
  have hsingle : [key].eraseDups = [key] := rfl
  rw [List.eraseDups_append]
  by_cases hkey : key ∈ keys
  · simp [hkey, List.removeAll]
  · simp [hkey, List.removeAll, hsingle]

/-- The keys of the table are those of the entries, each at its first position. -/
theorem keys_putAll (entries : List (κ × ν)) :
    (putAll entries).map Prod.fst = (entries.map Prod.fst).eraseDups := by
  induction entries using List.reverseRecOn with
  | nil => rfl
  | append_singleton entries entry ih =>
    rw [putAll_concat, List.map_append, List.map_singleton, eraseDups_concat, ← ih]
    by_cases hkey : entry.1 ∈ entries.map Prod.fst
    · have hholds : holds (· == ·) entry.1 (putAll entries) = true := by
        rw [holds_iff, ih, List.mem_eraseDups]
        exact hkey
      rw [map_fst_put_of_holds hholds, if_pos hkey, List.append_nil]
    · have hholds : holds (· == ·) entry.1 (putAll entries) = false := by
        rw [Bool.eq_false_iff, Ne, holds_iff, ih, List.mem_eraseDups]
        exact hkey
      rw [put_of_not_holds hholds, if_neg hkey, List.map_append, List.map_singleton]

/-- No key stands twice in the table. -/
theorem nodup_putAll (entries : List (κ × ν)) : ((putAll entries).map Prod.fst).Nodup := by
  induction entries using List.reverseRecOn with
  | nil => exact List.nodup_nil
  | append_singleton entries entry ih =>
    rw [putAll_concat]
    cases hholds : holds (· == ·) entry.1 (putAll entries) with
    | true => rwa [map_fst_put_of_holds hholds]
    | false =>
      rw [put_of_not_holds hholds, List.map_append, List.map_singleton]
      rw [Bool.eq_false_iff, Ne, holds_iff] at hholds
      rw [← List.concat_eq_append]
      exact ih.concat hholds

/-- Writing an entry replaces what stood at its key and leaves the rest. -/
theorem mem_put_iff {table : List (κ × ν)} (h : (table.map Prod.fst).Nodup) {k key : κ}
    {v value : ν} : (k, v) ∈ put (· == ·) key value table ↔
      (k = key ∧ v = value) ∨ (k ≠ key ∧ (k, v) ∈ table) := by
  induction table with
  | nil => simp [put]
  | cons entry rest ih =>
    obtain ⟨first, there⟩ := entry
    obtain ⟨hfirst, hrest⟩ := List.nodup_cons.mp h
    have hother (hmem : (k, v) ∈ rest) : k ≠ first := by
      rintro rfl
      exact hfirst (List.mem_map.mpr ⟨(k, v), hmem, rfl⟩)
    by_cases hkey : first = key
    · subst hkey
      have hput : put (· == ·) first value ((first, there) :: rest) = (first, value) :: rest := by
        simp [put]
      rw [hput, List.mem_cons, List.mem_cons, Prod.mk.injEq, Prod.mk.injEq]
      constructor
      · rintro (hsame | hmem)
        · exact Or.inl hsame
        · exact Or.inr ⟨hother hmem, Or.inr hmem⟩
      · rintro (hsame | ⟨hne, hsame | hmem⟩)
        · exact Or.inl hsame
        · exact absurd hsame.1 hne
        · exact Or.inr hmem
    · have hput : put (· == ·) key value ((first, there) :: rest) =
          (first, there) :: put (· == ·) key value rest := by
        simp [put, hkey]
      rw [hput, List.mem_cons, List.mem_cons, ih hrest, Prod.mk.injEq]
      constructor
      · rintro (⟨rfl, rfl⟩ | hsame | ⟨hne, hmem⟩)
        · exact Or.inr ⟨hkey, Or.inl ⟨rfl, rfl⟩⟩
        · exact Or.inl hsame
        · exact Or.inr ⟨hne, Or.inr hmem⟩
      · rintro (hsame | ⟨hne, hsame | hmem⟩)
        · exact Or.inr (Or.inl hsame)
        · exact Or.inl hsame
        · exact Or.inr (Or.inr ⟨hne, hmem⟩)

/-- What stands at a key is what was written there last. -/
theorem mem_putAll_iff {entries : List (κ × ν)} {k : κ} {v : ν} :
    (k, v) ∈ putAll entries ↔
      ∃ before after, entries = before ++ (k, v) :: after ∧ ∀ entry ∈ after, entry.1 ≠ k := by
  induction entries using List.reverseRecOn with
  | nil => simp [putAll]
  | append_singleton entries entry ih =>
    rw [putAll_concat, mem_put_iff (nodup_putAll entries), ih]
    constructor
    · rintro (⟨rfl, rfl⟩ | ⟨hne, before, after, rfl, hafter⟩)
      · exact ⟨entries, [], rfl, List.forall_mem_nil _⟩
      · refine ⟨before, after ++ [entry], by simp, ?_⟩
        exact List.forall_mem_append.mpr ⟨hafter, List.forall_mem_singleton.mpr hne.symm⟩
    · rintro ⟨before, after, hentries, hafter⟩
      rcases List.eq_nil_or_concat after with rfl | ⟨inner, last, rfl⟩
      · obtain ⟨-, hlast⟩ := List.append_inj' hentries rfl
        rw [List.singleton_inj.mp hlast]
        exact Or.inl ⟨rfl, rfl⟩
      · rw [List.concat_eq_append, ← List.cons_append, ← List.append_assoc] at hentries
        obtain ⟨rfl, hlast⟩ := List.append_inj' hentries rfl
        obtain rfl := List.singleton_inj.mp hlast
        rw [List.concat_eq_append] at hafter
        obtain ⟨hinner, hentry⟩ := List.forall_mem_append.mp hafter
        exact Or.inr ⟨(hentry entry List.mem_cons_self).symm, before, inner, rfl, hinner⟩

end Ordered

/-! ## Rendered protocols -/

/-- A declared protocol that was taken out under a text for its name, and rendered. -/
structure Rendering (active settings : Settings) where
  /-- The protocol as it is declared. -/
  declared : ProtocolDeclaration
  /-- The protocol as it was taken out. -/
  protocol : Protocol
  /-- Its name, declared or made up. -/
  name : String
  /-- The document. -/
  text : String
  /-- The protocol has the name. -/
  named : protocol.name = .text name
  /-- The document is what the protocol is rendered to. -/
  rendered : protocol.render active (some settings) = .ok text

namespace Rendering

variable {active settings : Settings}

/-- The documents of protocols that were rendered one after another: the last one of each name, at
the position of the first one. -/
def documents (pages : List (Rendering active settings)) : Documents :=
  (Ordered.putAll (pages.map fun x => (x.name, x.text))).map fun entry => (.text entry.1, entry.2)

/-- What is reported about a protocol, after protocols of the given names: that its name was made
up, if it was, that it was found, and that its name is taken, if it is. -/
def report (earlier : List String) (x : Rendering active settings) : Log :=
  (if x.declared.name.isVacant then
    [⟨.warning, "Could not determine real protocol name. Defaulting to " ++ x.name⟩] else []) ++
  [⟨.info, "Found NEX protocol: " ++ x.name⟩] ++
  (if x.name ∈ earlier then
    [⟨.warning, "Protocol " ++ x.name ++ " is declared more than once; the last one wins"⟩] else [])

/-- What is reported about protocols, one after another. -/
def reports (earlier : List String) : List (Rendering active settings) → Log
  | [] => []
  | x :: rest => x.report earlier ++ reports (earlier ++ [x.name]) rest

variable (pages : List (Rendering active settings)) (x : Rendering active settings)

/-- The report of one more protocol comes last. -/
theorem reports_concat (earlier : List String) :
    reports earlier (pages ++ [x]) =
      reports earlier pages ++ x.report (earlier ++ pages.map name) := by
  induction pages generalizing earlier with
  | nil => simp [reports]
  | cons y rest ih => simp [reports, ih]

/-- One more document is put at its name. -/
theorem documents_concat :
    documents (pages ++ [x]) =
      Ordered.put Value.sameKey (.text x.name) x.text (documents pages) := by
  rw [documents, List.map_append, List.map_singleton, Ordered.putAll_concat]
  exact Ordered.map_put fun entry _ => rfl

/-- The names of the documents are those of the protocols, each at its first position. -/
theorem keys_documents :
    (documents pages).map Prod.fst = (pages.map name).eraseDups.map Value.text := by
  have hnames : (pages.map fun x => (x.name, x.text)).map Prod.fst = pages.map name := by
    rw [List.map_map]
    rfl
  rw [documents, List.map_map, ← hnames, ← Ordered.keys_putAll, List.map_map]
  rfl

/-- A document is that of the last protocol of its name. -/
theorem mem_documents_iff {key : Value} {text : String} :
    (key, text) ∈ documents pages ↔
      ∃ earlier x later, pages = earlier ++ x :: later ∧ x.protocol.name = key ∧ x.text = text ∧
        ∀ y ∈ later, y.protocol.name ≠ key := by
  simp only [documents, List.mem_map, Prod.mk.injEq, Prod.exists]
  constructor
  · rintro ⟨name, text, hmem, rfl, rfl⟩
    obtain ⟨before, after, hentries, hafter⟩ := Ordered.mem_putAll_iff.mp hmem
    obtain ⟨earlier, others, rfl, -, hothers⟩ := List.map_eq_append_iff.mp hentries
    obtain ⟨x, later, rfl, hx, rfl⟩ := List.map_eq_cons_iff.mp hothers
    obtain ⟨rfl, rfl⟩ := Prod.mk.inj hx
    refine ⟨earlier, x, later, rfl, x.named, rfl, fun y hy hname => ?_⟩
    rw [y.named] at hname
    exact hafter _ (List.mem_map_of_mem hy) (Value.text.inj hname)
  · rintro ⟨earlier, x, later, rfl, rfl, rfl, hlater⟩
    refine ⟨x.name, x.text, ?_, x.named.symm, rfl⟩
    refine Ordered.mem_putAll_iff.mpr ⟨_, _, List.map_append, fun entry hentry hname => ?_⟩
    obtain ⟨y, hy, rfl⟩ := List.mem_map.mp hentry
    refine hlater y hy ?_
    rw [y.named, x.named]
    exact congrArg Value.text hname

/-- A report announces that a name is taken exactly if it is. -/
theorem countP_report (earlier : List String) :
    (x.report earlier).countP (·.isRepeat) = if x.name ∈ earlier then 1 else 0 := by
  have hmade : LogRecord.isRepeat
      ⟨.warning, "Could not determine real protocol name. Defaulting to " ++ x.name⟩ = false := by
    simp [LogRecord.isRepeat]
  have hfound : LogRecord.isRepeat ⟨.info, "Found NEX protocol: " ++ x.name⟩ = false := by
    simp [LogRecord.isRepeat]
  have htaken : LogRecord.isRepeat ⟨.warning,
      "Protocol " ++ x.name ++ " is declared more than once; the last one wins"⟩ = true := by
    rw [LogRecord.isRepeat, decide_eq_true_eq, String.append_assoc, String.toList_append]
    exact ⟨rfl, List.prefix_append _ _⟩
  have hnaming : List.countP (·.isRepeat) (if x.declared.name.isVacant then
      [⟨.warning, "Could not determine real protocol name. Defaulting to " ++ x.name⟩]
      else [] : Log) = 0 := by
    split
    · rw [List.countP_singleton, hmade]
      rfl
    · rfl
  rw [report, List.countP_append, List.countP_append, hnaming, List.countP_singleton, hfound]
  by_cases hname : x.name ∈ earlier
  · rw [if_pos hname, if_pos hname, List.countP_singleton, htaken]
    rfl
  · rw [if_neg hname, if_neg hname]
    rfl

/-- Each announcement of a name that is taken is one document less. -/
theorem countP_reports :
    (reports [] pages).countP (·.isRepeat) + (documents pages).length = pages.length := by
  have hlength (pages : List (Rendering active settings)) :
      (documents pages).length = (pages.map name).eraseDups.length := by
    rw [← List.length_map (f := Prod.fst), keys_documents, List.length_map]
  induction pages using List.reverseRecOn with
  | nil => rfl
  | append_singleton pages x ih =>
    rw [hlength] at ih
    rw [hlength, reports_concat, List.countP_append, List.nil_append, countP_report,
      List.map_append, List.map_singleton, Ordered.eraseDups_concat, List.length_append,
      List.length_append, List.length_singleton]
    split
    · rw [List.length_nil]
      omega
    · rw [List.length_singleton]
      omega

end Rendering

/-! ## Whole runs -/

section Run

variable (active settings : Settings) (counter : Int)

/-- A name is announced as taken exactly if it is one of the names so far. -/
theorem announceRepeat_text (name : String) (names : List String) :
    announceRepeat (.text name) (names.map Value.text) =
      if name ∈ names then
        [⟨.warning, "Protocol " ++ name ++ " is declared more than once; the last one wins"⟩]
      else [] := by
  have hany : (names.map Value.text).any (·.sameKey (.text name)) = true ↔ name ∈ names := by
    simp [sameKey_text_iff]
  simp only [announceRepeat, hany]
  rfl

/-- What is reported about the name of the protocol behind `before`. -/
theorem namingLog_eq (before : Schema) {p : ProtocolDeclaration} {name : String}
    (hname : (definitionAt settings counter before p).name = .text name) :
    namingLog settings (counter + before.nameless) p.name =
      (if p.name.isVacant then
        [⟨.warning, "Could not determine real protocol name. Defaulting to " ++ name⟩] else []) ++
      [⟨.info, "Found NEX protocol: " ++ name⟩] := by
  rw [namingLog, protocolName_eq_definitionAt, hname]
  cases hvacant : p.name.isVacant with
  | true =>
    have hmade :
        syntheticName settings.unknownProtocolPrefix (counter + before.nameless) = name := by
      rw [← protocolName_eq_definitionAt, protocolName, nameProtocol_of_nameless hvacant] at hname
      exact Value.text.inj hname
    rw [nameProtocol_of_nameless hvacant, hmade]
    rfl
  | false =>
    rw [nameProtocol_of_named hvacant]
    rfl

/-- A visit that collects the document of a protocol, and what it reports after naming it. -/
theorem addDocument_rendering (before : Schema) {p : ProtocolDeclaration}
    (hname : p.name.IsTextOrNull) (pages : List (Rendering active settings))
    (h : (addDocument active settings (Rendering.documents pages)
      (definitionAt settings counter before p)).failure = none) :
    ∃ x : Rendering active settings, x.declared = p ∧
      x.protocol = definitionAt settings counter before p ∧
      (addDocument active settings (Rendering.documents pages)
        (definitionAt settings counter before p)).state = Rendering.documents (pages ++ [x]) ∧
      namingLog settings (counter + before.nameless) p.name ++
          (addDocument active settings (Rendering.documents pages)
            (definitionAt settings counter before p)).log =
        x.report (pages.map Rendering.name) := by
  have htext : (definitionAt settings counter before p).name.IsText := by
    rw [← protocolName_eq_definitionAt]
    exact isText_protocolName settings _ hname
  obtain ⟨name, hnamed⟩ := htext
  have hkey : (definitionAt settings counter before p).name.isKey = true := by
    rw [hnamed]
    rfl
  cases hrender : (definitionAt settings counter before p).render active (some settings) with
  | error misuse =>
    simp [addDocument, hkey, hrender] at h
  | ok text =>
    refine ⟨⟨p, _, name, text, hnamed, hrender⟩, rfl, rfl, ?_, ?_⟩
    · rw [Rendering.documents_concat]
      simp only [addDocument, hrender, hnamed]
      rfl
    · have hlog : (addDocument active settings (Rendering.documents pages)
          (definitionAt settings counter before p)).log =
          announceRepeat (.text name) ((Rendering.documents pages).map Prod.fst) := by
        simp only [addDocument, hrender, hnamed]
        rfl
      rw [hlog, namingLog_eq settings counter before hnamed, Rendering.keys_documents,
        announceRepeat_text]
      simp only [List.mem_eraseDups]
      rfl

/-- The loop invariant of a run that collects documents, at an arbitrary cut of the schema. The
protocols in front of the cut have been rendered, their documents collected, and everything reported
that there is to say about them. -/
theorem buildDocuments_append {before : Schema} (rest : Schema)
    (hnames : ∀ p ∈ before.protocols, p.name.IsTextOrNull)
    (h : (buildDocuments active (some settings) counter (before ++ rest)).failure = none) :
    ∃ pages : List (Rendering active settings), pages.map Rendering.declared = before.protocols ∧
      Segmented settings counter before (pages.map Rendering.protocol) ∧
      buildDocuments active (some settings) counter (before ++ rest) =
        ((Cursor.mk settings rest before.trailing).walk (addDocument active settings)
          (counter + before.nameless) (Rendering.documents pages)).after
            (Rendering.reports [] pages) := by
  induction before using List.reverseRecOn generalizing rest with
  | nil =>
    refine ⟨[], rfl, .nil, ?_⟩
    simp [buildDocuments, Cursor.start, Rendering.documents, Rendering.reports, Ordered.putAll]
  | append_singleton before d ih =>
    rw [List.append_assoc, List.singleton_append] at h ⊢
    cases d with
    | record r =>
      obtain ⟨pages, hdeclared, hsegmented, hwalk⟩ :=
        ih (.record r :: rest) (by simpa using hnames) h
      refine ⟨pages, by simpa using hdeclared, hsegmented.concat_record r, ?_⟩
      rw [hwalk, Cursor.walk_record, Schema.trailing_concat_record, Schema.nameless_concat_record]
    | protocol p =>
      rw [Schema.protocols_concat_protocol] at hnames
      obtain ⟨hbefore, hp⟩ := List.forall_mem_append.mp hnames
      obtain ⟨pages, hdeclared, hsegmented, hwalk⟩ := ih (.protocol p :: rest) hbefore h
      rw [hwalk] at h
      -- The run succeeds, so the protocol behind the cut could be taken out and rendered.
      have hdirected := Cursor.directed_of_walk h
      obtain ⟨hmethods, -⟩ := Schema.directed_cons_protocol.mp hdirected
      obtain ⟨hnext, hstops⟩ := walk_definitionAt settings counter (addDocument active settings)
        (Rendering.documents pages) before hmethods rest
      cases hvisit : (addDocument active settings (Rendering.documents pages)
        (definitionAt settings counter before p)).failure with
      | some failure =>
        have hfailed := (hstops failure hvisit).1
        exact absurd (hfailed.symm.trans h) (Option.some_ne_none failure)
      | none =>
        obtain ⟨x, hxdeclared, hxprotocol, hstate, hreport⟩ :=
          addDocument_rendering active settings counter before (hp p List.mem_cons_self) pages
            hvisit
        refine ⟨pages ++ [x], ?_, ?_, ?_⟩
        · rw [List.map_append, hdeclared, List.map_singleton, hxdeclared,
            Schema.protocols_concat_protocol]
        · rw [List.map_append, List.map_singleton, hxprotocol]
          exact hsegmented.concat_protocol p
        · rw [hwalk, hnext hvisit, Walk.after_after, hstate, hreport, Rendering.reports_concat,
            Schema.trailing_concat_protocol, List.nil_append]

/-- No detail about records that are left over announces a name that is taken. -/
theorem countP_dropPending (records : List Record) :
    (dropPending counter records).log.countP (·.isRepeat) = 0 := by
  rw [List.countP_eq_zero]
  intro r hr hrepeat
  have habout : r ∈ (dropPending counter records).log.aboutDocuments :=
    List.mem_filter.mpr ⟨hr, by rw [hrepeat, Bool.true_or]⟩
  rw [aboutDocuments_dropPending] at habout
  exact List.not_mem_nil habout

/-- A run that succeeds keeps one document for each name, declared or made up, in the order in which
the names first occur, and that document is the rendering of the last protocol of the name. Each
protocol whose name has occurred before is announced once, right after it was found, so there are as
many announcements as there are protocols without a document. -/
theorem repeated_names_last_wins {schema : Schema}
    (hnames : ∀ p ∈ schema.protocols, p.name.IsTextOrNull)
    (hbuilt : (buildDocuments active (some settings) counter schema).failure = none) :
    ∃ pages : List (Rendering active settings), pages.map Rendering.declared = schema.protocols ∧
      Segmented settings counter schema (pages.map Rendering.protocol) ∧
      (buildDocuments active (some settings) counter schema).state.map Prod.fst =
        (pages.map Rendering.name).eraseDups.map Value.text ∧
      (∀ key text, (key, text) ∈ (buildDocuments active (some settings) counter schema).state ↔
        ∃ earlier x later, pages = earlier ++ x :: later ∧ x.protocol.name = key ∧ x.text = text ∧
          ∀ y ∈ later, y.protocol.name ≠ key) ∧
      (buildDocuments active (some settings) counter schema).log = Rendering.reports [] pages ++
        (dropPending (counter + schema.nameless) schema.trailing).log ∧
      (buildDocuments active (some settings) counter schema).log.countP (·.isRepeat) +
        (buildDocuments active (some settings) counter schema).state.length =
          schema.protocols.length := by
  rw [← List.append_nil schema] at hbuilt
  obtain ⟨pages, hdeclared, hsegmented, hwalk⟩ :=
    buildDocuments_append active settings counter [] hnames hbuilt
  rw [List.append_nil, Cursor.walk_nil] at hwalk
  have hstate : (buildDocuments active (some settings) counter schema).state =
      Rendering.documents pages := by
    rw [hwalk]
    rfl
  have hlog : (buildDocuments active (some settings) counter schema).log =
      Rendering.reports [] pages ++
        (dropPending (counter + schema.nameless) schema.trailing).log := by
    rw [hwalk]
    rfl
  refine ⟨pages, hdeclared, hsegmented, ?_, fun key text => ?_, hlog, ?_⟩
  · rw [hstate, Rendering.keys_documents]
  · rw [hstate, Rendering.mem_documents_iff]
  · rw [hlog, hstate, List.countP_append, countP_dropPending, Nat.add_zero,
      Rendering.countP_reports, ← hdeclared, List.length_map]

end Run

/-- Two protocols of one name, and one that declares the name that is made up for another. -/
def repeatingSchema : Schema :=
  [.protocol ⟨.text "Auth", []⟩, .protocol ⟨.null, []⟩,
    .protocol ⟨.text "Unknown Protocol - 0", []⟩,
    .protocol ⟨.text "Auth", [⟨.text "Login", []⟩]⟩, .record ⟨.text "Leftover", .null, []⟩]

/-- Of the four protocols, two are announced as repetitions and two documents are kept. -/
theorem repeatingSchema_last_wins :
    ∃ pages : List (Rendering {} {}), pages.map Rendering.declared = repeatingSchema.protocols ∧
      (buildDocuments {} (some {}) 0 repeatingSchema).state.map Prod.fst =
        (pages.map Rendering.name).eraseDups.map Value.text ∧
      (buildDocuments {} (some {}) 0 repeatingSchema).log = Rendering.reports [] pages ++
        (dropPending 1 repeatingSchema.trailing).log ∧
      (buildDocuments {} (some {}) 0 repeatingSchema).log.countP (·.isRepeat) = 2 ∧
      (buildDocuments {} (some {}) 0 repeatingSchema).state.length = 2 := by
  have hnames : ∀ p ∈ repeatingSchema.protocols, p.name.IsTextOrNull := by
    simp [repeatingSchema, Schema.protocols, Declaration.protocol?, Value.IsTextOrNull,
      Value.IsText]
  have hrepeats : (buildDocuments {} (some {}) 0 repeatingSchema).log.countP (·.isRepeat) = 2 := by
    decide +kernel
  obtain ⟨pages, hdeclared, -, hkeys, -, hlog, hcount⟩ :=
    repeated_names_last_wins {} {} 0 hnames (by decide +kernel)
  have hprotocols : repeatingSchema.protocols.length = 4 := rfl
  exact ⟨pages, hdeclared, hkeys, hlog, hrepeats, by omega⟩

end ProtocolPages
