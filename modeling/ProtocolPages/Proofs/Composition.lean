import ProtocolPages.Command.Run
import ProtocolPages.Proofs.Acceptance
import ProtocolPages.Proofs.DiskReads
import ProtocolPages.Proofs.JsonReading
import ProtocolPages.Proofs.NodeShapes
import ProtocolPages.Proofs.Textual

/-!
# Runs over several trees

The command takes its trees one after another and stops at the first one that it cannot use. What it
leaves can be told without following it: the documents of all trees before that one, in order, and
of the protocols in front of the first bad one. The proof follows the trees one at a time; between
two of them the disk holds the documents so far, and a tree that is no document reads as it did at
the start.
-/

namespace ProtocolPages

/-! ## The documents of one tree -/

/-- The page is the document of the protocol, under its file name. -/
def IsPage (settings : Settings) (p : Protocol) (page : Page) : Prop :=
  page.1 = p.name.plain ++ settings.fileExtension ∧ p.render {} (some settings) = .ok page.2

/-- The pages are the documents of all protocols of the schema, in order, when the nameless ones are
numbered from the counter on. -/
def PagesOf (settings : Settings) (counter : Int) (schema : Schema) (pages : List Page) : Prop :=
  ∃ found, Segmented settings counter schema found ∧ List.Forall₂ (IsPage settings) found pages

section Pages

variable {settings : Settings} {counter : Int} {schema : Schema} {folder : Path}

/-- Protocols made of texts have pages. -/
theorem exists_pages {found : List Protocol} (h : ∀ p ∈ found, p.Textual) :
    ∃ pages, List.Forall₂ (IsPage settings) found pages := by
  induction found with
  | nil => exact ⟨[], .nil⟩
  | cons p rest ih =>
    obtain ⟨hp, hrest⟩ := List.forall_mem_cons.mp h
    obtain ⟨text, htext⟩ := hp.exists_render {} settings
    obtain ⟨pages, hpages⟩ := ih hrest
    exact ⟨(p.name.plain ++ settings.fileExtension, text) :: pages, .cons ⟨rfl, htext⟩ hpages⟩

/-- A directed schema made of texts has pages. -/
theorem exists_pagesOf (hdirected : schema.Directed) (htextual : schema.Textual) :
    ∃ pages, PagesOf settings counter schema pages := by
  obtain ⟨found, hfound, -⟩ := walk_append settings counter hdirected
  obtain ⟨pages, hpages⟩ := exists_pages (hfound.textual htextual)
  exact ⟨pages, found, hfound, hpages⟩

/-- A page that is accepted is written, and the visit succeeds. -/
theorem publish_disk {d : Disk} {p : Protocol} {page : Page} {path : Path} (htextual : p.Textual)
    (hpage : IsPage settings p page) (hpath : (d.writeDocument folder page.1 page.2).2 = .ok path)
    (seen : List Value) (paths : List Path) :
    (publish {} settings .disk folder ⟨d, seen, paths⟩ p).failure = none ∧
      (publish {} settings .disk folder ⟨d, seen, paths⟩ p).state =
        ⟨(d.writeDocument folder page.1 page.2).1, seen ++ [p.name], paths ++ [path]⟩ := by
  obtain ⟨name, hname⟩ := htextual.name
  have hkey : p.name.isKey = true := by rw [hname]; rfl
  obtain ⟨hfile, hrender⟩ := hpage
  simp only [publish, hkey, hrender, if_true, Writer.disk, ← hfile, hpath, and_self]

/-- Pages that are accepted are written, and the visits succeed. -/
theorem visitAll_disk {found : List Protocol} {pages : List Page}
    (htextual : ∀ p ∈ found, p.Textual) (hpages : List.Forall₂ (IsPage settings) found pages)
    {d : Disk} (haccepts : d.Accepts folder pages) (seen : List Value) (paths : List Path) :
    (visitAll (publish {} settings .disk folder) ⟨d, seen, paths⟩ found).failure = none ∧
      (visitAll (publish {} settings .disk folder) ⟨d, seen, paths⟩ found).state.store =
        d.writeDocuments folder pages := by
  induction hpages generalizing d seen paths with
  | nil => exact ⟨rfl, rfl⟩
  | cons hpage _ ih =>
    obtain ⟨hp, hrest⟩ := List.forall_mem_cons.mp htextual
    obtain ⟨⟨path, hpath⟩, haccepts⟩ := haccepts
    obtain ⟨hnone, hstate⟩ := publish_disk hp hpage hpath seen paths
    simp only [visitAll, hnone, hstate]
    exact ih hrest haccepts _ _

/-- A run over a directed schema writes its pages and counts its nameless protocols. -/
theorem generate_disk_of_directed (hdirected : schema.Directed) (htextual : schema.Textual)
    {pages : List Page} (hpages : PagesOf settings counter schema pages) {d : Disk}
    (haccepts : d.Accepts folder pages) :
    (generate {} (some settings) .disk d folder counter schema).failure = none ∧
      (generate {} (some settings) .disk d folder counter schema).state.store =
        d.writeDocuments folder pages ∧
      (generate {} (some settings) .disk d folder counter schema).counter =
        counter + schema.nameless := by
  obtain ⟨found, hfound, hpages⟩ := hpages
  obtain ⟨found', hfound', hwalk⟩ := walk_append settings counter hdirected
  obtain rfl := hfound'.unique hfound
  obtain ⟨log, hlog⟩ := hwalk (publish {} settings .disk folder) ⟨d, [], []⟩
  obtain ⟨hnone, hstore⟩ := visitAll_disk (hfound.textual htextual) hpages haccepts [] []
  have hend := (hlog []).1 hnone
  have htrailing : ∀ r ∈ schema.trailing, r.Textual :=
    fun r hr => htextual _ (Schema.mem_of_mem_trailing hr)
  rw [List.append_nil, Cursor.walk_nil, dropPending_of_textual htrailing] at hend
  rw [generate_some, hend]
  exact ⟨rfl, hstore, rfl⟩

/-- A run over a schema with a bad protocol writes the pages of the protocols in front of it. -/
theorem generate_disk_of_undirected {before : Schema} {p : ProtocolDeclaration}
    (hdirected : before.Directed) (htextual : before.Textual) (hbad : ¬∀ m ∈ p.methods, m.Directed)
    {pages : List Page} (hpages : PagesOf settings counter before pages) {d : Disk}
    (haccepts : d.Accepts folder pages) (after : Schema) :
    let run := generate {} (some settings) .disk d folder counter (before ++ .protocol p :: after)
    (∃ e, run.failure = some (.direction e)) ∧ run.state.store = d.writeDocuments folder pages := by
  intro run
  obtain ⟨found, hfound, hpages⟩ := hpages
  obtain ⟨found', hfound', hwalk⟩ := walk_append settings counter hdirected
  obtain rfl := hfound'.unique hfound
  obtain ⟨log, hlog⟩ := hwalk (publish {} settings .disk folder) ⟨d, [], []⟩
  obtain ⟨hnone, hstore⟩ := visitAll_disk (hfound.textual htextual) hpages haccepts [] []
  have hend := (hlog (.protocol p :: after)).1 hnone
  rcases toMethods_cases (protocolName settings (counter + Schema.nameless before) p.name) p.methods
    with ⟨hgood, -⟩ | ⟨-, e, herror⟩
  · exact absurd hgood hbad
  · rw [Cursor.walk_protocol_of_error herror] at hend
    subst run
    rw [generate_some, hend]
    exact ⟨⟨e, rfl⟩, hstore⟩

end Pages

namespace Command

/-! ## The documents of several trees -/

/-- The tree can be loaded and each of its parameters has a direction. -/
def Usable (read : Path → Except Failure Schema) (tree : Path) : Prop :=
  ∃ schema, read tree = .ok schema ∧ schema.Directed

/-- How the command exits at a tree that is not usable: with code one, unless the tree could not be
loaded for a reason that has no message. -/
def exitAt : Except Failure Schema → Except Failure Nat
  | .ok _ => .ok 1
  | .error failure => if failure.message?.isSome then .ok 1 else .error failure

/-- The documents that trees come to and the exit of the command, when the nameless protocols are
numbered from the counter on. -/
inductive Composition (settings : Settings) (read : Path → Except Failure Schema) :
    Int → List Path → List Page → Except Failure Nat → Prop where
  /-- All trees have been used. -/
  | done {counter : Int} : Composition settings read counter [] [] (.ok 0)
  /-- The first tree cannot be loaded. -/
  | unloaded {counter : Int} {tree : Path} {rest : List Path} {failure : Failure}
      (hread : read tree = .error failure) :
      Composition settings read counter (tree :: rest) [] (exitAt (.error failure))
  /-- The first tree has a bad protocol; those in front of it have their documents. -/
  | undirected {counter : Int} {tree : Path} {rest : List Path} {before after : Schema}
      {p : ProtocolDeclaration} {pages : List Page}
      (hread : read tree = .ok (before ++ .protocol p :: after)) (hbefore : before.Directed)
      (hbad : ¬∀ m ∈ p.methods, m.Directed) (hpages : PagesOf settings counter before pages) :
      Composition settings read counter (tree :: rest) pages (.ok 1)
  /-- The first tree is usable, and the others follow with the numbers that it leaves. -/
  | next {counter : Int} {tree : Path} {rest : List Path} {schema : Schema}
      {pages later : List Page} {exit : Except Failure Nat} (hread : read tree = .ok schema)
      (hdirected : schema.Directed) (hpages : PagesOf settings counter schema pages)
      (hrest : Composition settings read (counter + schema.nameless) rest later exit) :
      Composition settings read counter (tree :: rest) (pages ++ later) exit

section Composition

variable {settings : Settings} {read : Path → Except Failure Schema} {counter : Int}
  {trees : List Path} {pages : List Page} {exit : Except Failure Nat}

/-- Trees whose schemas are made of texts can be composed. -/
theorem exists_composition (settings : Settings) (counter : Int)
    (h : ∀ tree ∈ trees, ∀ schema, read tree = .ok schema → schema.Textual) :
    ∃ pages exit, Composition settings read counter trees pages exit := by
  induction trees generalizing counter with
  | nil => exact ⟨[], .ok 0, .done⟩
  | cons tree rest ih =>
    obtain ⟨hfirst, hrest⟩ := List.forall_mem_cons.mp h
    cases hread : read tree with
    | error failure => exact ⟨[], _, .unloaded hread⟩
    | ok schema =>
      have htextual := hfirst schema hread
      by_cases hdirected : schema.Directed
      · obtain ⟨pages, hpages⟩ := exists_pagesOf hdirected htextual
        obtain ⟨later, exit, hlater⟩ := ih (counter + schema.nameless) hrest
        exact ⟨pages ++ later, exit, .next hread hdirected hpages hlater⟩
      · obtain ⟨before, p, after, rfl, hbefore, hbad⟩ := Schema.exists_first_undirected hdirected
        obtain ⟨pages, hpages⟩ := exists_pagesOf hbefore (List.forall_mem_append.mp htextual).1
        exact ⟨pages, .ok 1, .undirected hread hbefore hbad hpages⟩

/-- All trees are usable and the exit code is zero, or the first one that is not determines the exit
code and makes the trees behind it pointless. -/
theorem Composition.cases (h : Composition settings read counter trees pages exit) :
    (exit = .ok 0 ∧ ∀ tree ∈ trees, Usable read tree) ∨
    ∃ good bad unused, trees = good ++ bad :: unused ∧ (∀ tree ∈ good, Usable read tree) ∧
      ¬Usable read bad ∧ exit = exitAt (read bad) ∧
      ∀ others, Composition settings read counter (good ++ bad :: others) pages exit := by
  induction h with
  | done => exact Or.inl ⟨rfl, by simp⟩
  | @unloaded counter tree rest failure hread =>
    refine Or.inr ⟨[], tree, rest, rfl, by simp, ?_, by rw [hread], fun others => .unloaded hread⟩
    rintro ⟨schema, hschema, -⟩
    rw [hread] at hschema
    cases hschema
  | @undirected counter tree rest before after p pages hread hbefore hbad hpages =>
    refine Or.inr ⟨[], tree, rest, rfl, by simp, ?_, by rw [hread]; rfl,
      fun others => .undirected hread hbefore hbad hpages⟩
    rintro ⟨schema, hschema, hdirected⟩
    rw [hread] at hschema
    cases hschema
    exact hbad (hdirected p (by simp [Schema.protocols, Declaration.protocol?]))
  | @next counter tree rest schema pages later exit hread hdirected hpages hrest ih =>
    have hfirst : Usable read tree := ⟨schema, hread, hdirected⟩
    rcases ih with ⟨hexit, husable⟩ | ⟨good, bad, unused, rfl, hgood, hbad, hexit, hothers⟩
    · exact Or.inl ⟨hexit, List.forall_mem_cons.mpr ⟨hfirst, husable⟩⟩
    · exact Or.inr ⟨tree :: good, bad, unused, rfl, List.forall_mem_cons.mpr ⟨hfirst, hgood⟩, hbad,
        hexit, fun others => .next hread hdirected hpages (hothers others)⟩

end Composition

/-! ## Loading trees while documents are written -/

/-- Two attempts to load a tree come to the same, or fail with a message both times. -/
def LoadsAlike (first later : Except Failure Schema) : Prop :=
  later = first ∨ ∃ failure failure', first = .error failure ∧ later = .error failure' ∧
    failure.message?.isSome = true ∧ failure'.message?.isSome = true

/-- A tree that could be loaded at first is loaded alike later on. -/
theorem LoadsAlike.eq_ok {schema : Schema} {later : Except Failure Schema}
    (h : LoadsAlike (.ok schema) later) : later = .ok schema := by
  rcases h with hsame | ⟨_, _, hfirst, -⟩
  · exact hsame
  · cases hfirst

/-- A tree that could not be loaded at first fails with the same exit later on. -/
theorem LoadsAlike.exitAt_eq {failure : Failure} {later : Except Failure Schema}
    (h : LoadsAlike (.error failure) later) :
    ∃ failure', later = .error failure' ∧ exitAt (.error failure') = exitAt (.error failure) := by
  rcases h with hsame | ⟨_, failure', hfirst, hlater, hmessage, hmessage'⟩
  · exact ⟨failure, hsame, rfl⟩
  · cases hfirst
    exact ⟨failure', hlater, by simp [exitAt, hmessage, hmessage']⟩

/-- A tree whose file reads alike loads alike. -/
theorem loadsAlike_of_read {d d' : Disk} {path : Path}
    (h : d'.read path = d.read path ∨
      ∃ refusal refusal', d.read path = .error refusal ∧ d'.read path = .error refusal') :
    LoadsAlike (loadTree d path).2 (loadTree d' path).2 := by
  cases hpath : Disk.unusable? path with
  | some failure => exact Or.inl (by simp [loadTree, Disk.readText, Disk.readFile, hpath])
  | none =>
    rcases h with hsame | ⟨refusal, refusal', hbefore, hlater⟩
    · exact Or.inl (by simp only [loadTree, Disk.readText, Disk.readFile, hsame])
    · refine Or.inr ⟨.storage ⟨refusal, path⟩, .storage ⟨refusal', path⟩, ?_, ?_, rfl, rfl⟩
      · simp [loadTree, Disk.readText, Disk.readFile, hpath, hbefore, Except.mapError, Bind.bind,
          Except.bind]
      · simp [loadTree, Disk.readText, Disk.readFile, hpath, hlater, Except.mapError, Bind.bind,
          Except.bind]

/-- A file whose text cannot be read fails with a message, unless the path or the bytes are at
fault. -/
theorem readText_failure {d : Disk} {path : Path} {failure : Failure}
    (h : d.readText path = .error failure) :
    failure.message?.isSome = true ∨ failure = .unencodable ∨ failure = .zeroInPath ∨
      failure = .notText := by
  rcases bind_error_cases h with hfile | ⟨bytes, -, htext⟩
  · rcases Disk.readFile_eq_error hfile with ⟨e, rfl⟩ | hpath
    · exact Or.inl rfl
    · rcases Disk.unusable?_cases hpath with hcode | hzero
      · exact Or.inr (Or.inl hcode)
      · exact Or.inr (Or.inr (Or.inl hzero))
  · split at htext
    · cases htext
    · cases htext
      exact Or.inr (Or.inr (Or.inr rfl))

/-- A text that is no tree fails with a message, unless a number in it is too long. -/
theorem loadText_failure {text : String} {failure : Failure}
    (h : (Schema.loadText text).2 = .error failure) :
    failure.message?.isSome = true ∨ failure = .integerTooLong := by
  unfold Schema.loadText at h
  split at h
  · cases h
    exact Or.inl rfl
  · cases h
    exact Or.inr rfl
  · obtain ⟨e, -, rfl⟩ := Schema.loadTree_eq_error_iff.mp h
    exact Or.inl rfl
  · cases h
    exact Or.inl rfl

/-- The reasons without a message for which a tree cannot be loaded. -/
def IsUnloadable (failure : Failure) : Prop :=
  failure = .unencodable ∨ failure = .zeroInPath ∨ failure = .notText ∨ failure = .integerTooLong

/-- A tree that cannot be loaded fails with a message, or for one of the reasons that have none. -/
theorem loadTree_failure {d : Disk} {path : Path} {failure : Failure}
    (h : (loadTree d path).2 = .error failure) :
    failure.message?.isSome = true ∨ IsUnloadable failure := by
  unfold loadTree at h
  split at h
  · next hread =>
    cases h
    rcases readText_failure hread with hmessage | hcode | hzero | hbytes
    · exact Or.inl hmessage
    · exact Or.inr (Or.inl hcode)
    · exact Or.inr (Or.inr (Or.inl hzero))
    · exact Or.inr (Or.inr (Or.inr (Or.inl hbytes)))
  · rcases loadText_failure h with hmessage | hlong
    · exact Or.inl hmessage
    · exact Or.inr (Or.inr (Or.inr (Or.inr hlong)))

/-- Nothing hinders a run over the trees that comes to the pages: their names have no slashes, each
of them is accepted, and none of them is written where a tree is. -/
structure Unhindered (d : Disk) (folder : Path) (trees : List Path) (pages : List Page) : Prop where
  no_slash : ∀ page ∈ pages, '/' ∉ page.1.toList
  accepted : d.Accepts folder pages
  apart : ∀ page ∈ pages, ∀ tree ∈ trees,
    (d.writeDocuments folder pages).locate (folder.file page.1) ≠
      (d.writeDocuments folder pages).locate tree

/-- Fewer trees hinder less. -/
theorem Unhindered.mono {d : Disk} {folder : Path} {trees fewer : List Path} {pages : List Page}
    (h : Unhindered d folder trees pages) (hfewer : fewer ⊆ trees) :
    Unhindered d folder fewer pages :=
  ⟨h.no_slash, h.accepted, fun page hpage tree htree => h.apart page hpage tree (hfewer htree)⟩

/-- The path leads somewhere, or it has no double dots. -/
def Steady (d : Disk) (path : Path) : Prop :=
  ".." ∉ path.parts ∨ ∃ location, d.locate path = .ok location

/-- A tree loads alike before and in the middle of an unhindered run. -/
theorem Unhindered.loadsAlike {d : Disk} {folder : Path} {trees : List Path}
    {written later : List Page} (h : Unhindered d folder trees (written ++ later))
    (hsound : d.Sound) {tree : Path} (htree : tree ∈ trees) (hsteady : Steady d tree) :
    LoadsAlike (loadTree d tree).2 (loadTree (d.writeDocuments folder written) tree).2 := by
  obtain ⟨haccepts, hrest⟩ := (Disk.accepts_append d folder written later).mp h.accepted
  obtain ⟨hslash, -⟩ := List.forall_mem_append.mp h.no_slash
  refine loadsAlike_of_read (haccepts.read_eq hslash hsound (fun page hpage hsame => ?_) hsteady)
  obtain ⟨location, -, -, hpaths⟩ := haccepts.filesAfter hslash
  -- Both paths keep leading to that location until the end of the run.
  have hpage' := hrest.grows.locate (hpaths page hpage)
  have htree' := hrest.grows.locate (hsame.symm.trans (hpaths page hpage))
  rw [← Disk.writeDocuments_append] at hpage' htree'
  exact h.apart page (List.mem_append_left later hpage) tree htree (hpage'.trans htree'.symm)

/-! ## Loading a tree that is spelled out -/

/-- Texts without carriage returns are read as they are written. -/
theorem unifyLineEnds_of_no_return {cs : List Char} (h : '\r' ∉ cs) :
    Text.unifyLineEnds cs = cs := by
  fun_induction Text.unifyLineEnds cs <;> simp_all

/-- A text is read back from its bytes. -/
theorem fromUTF8?_toUTF8 (s : String) : String.fromUTF8? s.toUTF8 = some s := by
  have hvalid : s.toUTF8.IsValidUTF8 := s.isValidUTF8
  rw [String.fromUTF8?, dif_pos hvalid]
  rfl

/-- A file that spells a tree is loaded as that tree. -/
theorem loadTree_of_spelled {d : Disk} {path : Path} {fields : List (String × Value)}
    (hread : d.readFile path = .ok (String.ofList (Json.spell (.object fields))).toUTF8)
    (hspellable : Json.spellable (.object fields) = true)
    (hlines : '\r' ∉ Json.spell (.object fields)) :
    loadTree d path = Schema.loadTree (.object fields) := by
  have htext : d.readText path = .ok (String.ofList (Json.spell (.object fields))) := by
    simp only [Disk.readText, hread, Bind.bind, Except.bind, fromUTF8?_toUTF8,
      String.toList_ofList, unifyLineEnds_of_no_return hlines]
    rfl
  simp only [loadTree, htext, Schema.loadText, Json.read_spell hspellable]

/-- A file that holds the tree of a schema. -/
def treeFile (schema : Schema) : DiskEntry :=
  .file (String.ofList (Json.spell schema.toTree)).toUTF8

/-- The tree of a schema is loaded from its file. -/
theorem loadTree_of_treeFile (schema : Schema) {d : Disk} {path : Path}
    (hread : d.readFile path = .ok (String.ofList (Json.spell schema.toTree)).toUTF8)
    (hspellable : Json.spellable schema.toTree = true) (hlines : '\r' ∉ Json.spell schema.toTree) :
    loadTree d path = ([], .ok (schema.map Declaration.settled)) := by
  rw [loadTree_of_spelled hread hspellable hlines]
  refine (loadTree_of_fits (Shape.fits_write [] _)).trans ?_
  rw [skipLog_declared, declarations_declared]

/-! ## The run -/

/-- The exit of a command that ended early or not. -/
def exitOf : Option Failure → Except Failure Nat
  | none => .ok 0
  | some failure => exitAt (.error failure)

/-- The exit follows from the failure, and the disk is left as it is. -/
theorem exit_finish (p : Progress) (threshold : Level) :
    (p.finish threshold).exit = exitOf p.failure ∧ (p.finish threshold).disk = p.disk := by
  unfold Progress.finish
  cases p.failure with
  | none => exact ⟨rfl, rfl⟩
  | some failure =>
    cases hmessage : failure.message? with
    | none => simp [hmessage, exitOf, exitAt]
    | some message => simp [hmessage, exitOf, exitAt]

/-- A tree that cannot be loaded ends the run and leaves the disk as it is. -/
theorem processTree_eq_of_error (settings : Settings) (folder : Option Path) {p : Progress}
    {tree : Path} {failure : Failure} (h : (loadTree p.disk tree).2 = .error failure) :
    processTree settings folder p tree =
      ⟨p.disk, p.counter, p.log ++ (loadTree p.disk tree).1, some failure⟩ := by
  unfold processTree
  rcases hload : loadTree p.disk tree with ⟨log, failure' | schema⟩
  · rw [hload] at h
    cases h
    rfl
  · rw [hload] at h
    cases h

/-- What a tree that cannot be loaded leaves: its failure, and the disk as it was. -/
theorem processTree_of_error (settings : Settings) (folder : Option Path) {p : Progress}
    {tree : Path} {failure : Failure} (h : (loadTree p.disk tree).2 = .error failure) :
    (processTree settings folder p tree).failure = some failure ∧
      (processTree settings folder p tree).disk = p.disk := by
  rw [processTree_eq_of_error settings folder h]
  exact ⟨rfl, rfl⟩

/-- A tree that can be loaded has its documents written. -/
theorem processTree_eq (settings : Settings) (folder : Path) {p : Progress} {tree : Path}
    {schema : Schema} (h : (loadTree p.disk tree).2 = .ok schema) :
    processTree settings (some folder) p tree =
      ⟨(generate {} (some settings) .disk p.disk folder p.counter schema).state.store,
        (generate {} (some settings) .disk p.disk folder p.counter schema).counter,
        p.log ++ (loadTree p.disk tree).1 ++
          (generate {} (some settings) .disk p.disk folder p.counter schema).log,
        (generate {} (some settings) .disk p.disk folder p.counter schema).failure⟩ := by
  unfold processTree
  rcases hload : loadTree p.disk tree with ⟨log, failure | found⟩
  · rw [hload] at h
    cases h
  · rw [hload] at h
    cases h
    rfl

/-- What a tree that can be loaded leaves is what the run over its schema leaves. -/
theorem processTree_of_ok (settings : Settings) (folder : Path) {p : Progress} {tree : Path}
    {schema : Schema} (h : (loadTree p.disk tree).2 = .ok schema) :
    (processTree settings (some folder) p tree).failure =
        (generate {} (some settings) .disk p.disk folder p.counter schema).failure ∧
      (processTree settings (some folder) p tree).disk =
        (generate {} (some settings) .disk p.disk folder p.counter schema).state.store ∧
      (processTree settings (some folder) p tree).counter =
        (generate {} (some settings) .disk p.disk folder p.counter schema).counter := by
  rw [processTree_eq settings folder h]
  exact ⟨rfl, rfl, rfl⟩

section Run

variable {settings : Settings} {read : Path → Except Failure Schema} {output : Option Path}
  {folder : Path}

/-- Nothing is done behind a tree that ends the run. -/
theorem processTrees_of_failed {p : Progress} {tree : Path} {failure : Failure}
    (h : (processTree settings output p tree).failure = some failure) (rest : List Path) :
    processTrees settings output p (tree :: rest) = processTree settings output p tree := by
  simp only [processTrees, h]

/-- A run goes on behind a tree whose documents are written. -/
theorem processTrees_of_written {p : Progress} {tree : Path}
    (h : (processTree settings output p tree).failure = none) (rest : List Path) :
    processTrees settings output p (tree :: rest) =
      processTrees settings output (processTree settings output p tree) rest := by
  simp only [processTrees, h]

/-- Once a run has failed, no further tree makes a difference. -/
theorem processTrees_append {p : Progress} {trees : List Path} {failure : Failure}
    (h : (processTrees settings (some folder) p trees).failure = some failure)
    (hnone : p.failure = none) (others : List Path) :
    processTrees settings (some folder) p (trees ++ others) =
      processTrees settings (some folder) p trees := by
  induction trees generalizing p with
  | nil =>
    rw [processTrees, hnone] at h
    cases h
  | cons tree rest ih =>
    cases hfirst : (processTree settings (some folder) p tree).failure with
    | some failure' =>
      rw [List.cons_append, processTrees_of_failed hfirst, processTrees_of_failed hfirst]
    | none =>
      rw [processTrees_of_written hfirst] at h
      rw [List.cons_append, processTrees_of_written hfirst, processTrees_of_written hfirst]
      exact ih h hfirst

/-- The run invariant. A run that stands in front of the trees, with documents accepted and trees
loading alike, comes to the documents and the exit of their composition. -/
theorem Composition.progress {counter : Int} {trees : List Path} {pages : List Page}
    {exit : Except Failure Nat} (h : Composition settings read counter trees pages exit)
    (htextual : ∀ tree ∈ trees, ∀ schema, read tree = .ok schema → schema.Textual) {p : Progress}
    (hcounter : p.counter = counter) (hnone : p.failure = none)
    (haccepts : p.disk.Accepts folder pages)
    (hloads : ∀ written later, pages = written ++ later → ∀ tree ∈ trees,
      LoadsAlike (read tree) (loadTree (p.disk.writeDocuments folder written) tree).2) :
    (processTrees settings (some folder) p trees).disk = p.disk.writeDocuments folder pages ∧
      exitOf (processTrees settings (some folder) p trees).failure = exit := by
  induction h generalizing p with
  | done => exact ⟨rfl, by rw [processTrees, hnone]; rfl⟩
  | @unloaded counter tree rest failure hread =>
    have hload := hloads [] [] rfl tree List.mem_cons_self
    rw [hread] at hload
    obtain ⟨failure', hlater, hexit⟩ := hload.exitAt_eq
    obtain ⟨hfailed, hdisk⟩ := processTree_of_error settings (some folder) hlater
    rw [processTrees_of_failed hfailed, hfailed, hdisk]
    exact ⟨rfl, hexit⟩
  | @undirected counter tree rest before after q pages hread hbefore hbad hpages =>
    have hload := hloads [] pages rfl tree List.mem_cons_self
    rw [hread] at hload
    obtain ⟨hfailure, hdisk, -⟩ := processTree_of_ok settings folder hload.eq_ok
    have hschema := htextual tree List.mem_cons_self _ hread
    subst hcounter
    obtain ⟨⟨e, he⟩, hstore⟩ := generate_disk_of_undirected hbefore
      (List.forall_mem_append.mp hschema).1 hbad hpages haccepts after
    rw [he] at hfailure
    rw [processTrees_of_failed hfailure, hfailure, hdisk, hstore]
    exact ⟨rfl, rfl⟩
  | @next counter tree rest schema pages later exit hread hdirected hpages hrest ih =>
    have hload := hloads [] (pages ++ later) rfl tree List.mem_cons_self
    rw [hread] at hload
    obtain ⟨hfailure, hdisk, hnext⟩ := processTree_of_ok settings folder hload.eq_ok
    have hschema := htextual tree List.mem_cons_self _ hread
    subst hcounter
    obtain ⟨hfirst, hlater⟩ := (Disk.accepts_append _ _ _ _).mp haccepts
    obtain ⟨hwritten, hstore, hcount⟩ :=
      generate_disk_of_directed hdirected hschema hpages hfirst
    rw [hwritten] at hfailure
    rw [hstore] at hdisk
    rw [hcount] at hnext
    rw [processTrees_of_written hfailure, Disk.writeDocuments_append, ← hdisk]
    refine ih (fun t ht => htextual t (List.mem_cons_of_mem tree ht)) hnext hfailure ?_ ?_
    · rw [hdisk]
      exact hlater
    · intro written rest' heq t ht
      have hthen := hloads (pages ++ written) rest' (by rw [heq, List.append_assoc]) t
        (List.mem_cons_of_mem tree ht)
      rwa [Disk.writeDocuments_append, ← hdisk] at hthen

end Run

/-- What a tree comes to if it is loaded before anything is written. -/
def loadedFirst (disk : Disk) (tree : Path) : Except Failure Schema :=
  (loadTree disk tree).2

/-- A tree that is not usable never gives the exit code zero. -/
theorem exitAt_ne_zero (result : Except Failure Schema) : exitAt result ≠ .ok 0 := by
  cases result with
  | ok schema => simp [exitAt]
  | error failure =>
    rw [exitAt]
    split <;> simp

/-- A tree breaks the run off only for reasons that have no message. -/
theorem exitAt_loadedFirst {disk : Disk} {tree : Path} {failure : Failure}
    (h : exitAt (loadedFirst disk tree) = .error failure) : IsUnloadable failure := by
  cases hload : loadedFirst disk tree with
  | ok schema =>
    rw [hload] at h
    cases h
  | error failure' =>
    rw [hload, exitAt] at h
    split at h
    · cases h
    · next hmessage =>
      cases h
      exact (loadTree_failure hload).resolve_left hmessage

/-- The run is the composition of its trees: it leaves the pages, and its exit is the one given. -/
structure RunsAs (args : List String) (disk : Disk) (options : Options) (folder : Path)
    (pages : List Page) (exit : Except Failure Nat) : Prop where
  /-- The disk is what writing the pages in order makes of it. -/
  disk_eq : (run args disk).disk = disk.writeDocuments folder pages
  /-- The files are those from before and the last page of each name. -/
  files : ∃ location,
    (pages ≠ [] → Disk.LeadsToFolder (run args disk).disk folder location) ∧
      Disk.FilesAfter disk location pages (run args disk).disk
  /-- The exit is the one given. -/
  exit_eq : (run args disk).exit = exit
  /-- It is zero exactly if all trees can be used. -/
  exit_zero_iff : (run args disk).exit = .ok 0 ↔
    ∀ tree ∈ options.trees, Usable (loadedFirst disk) (.ofString tree)
  /-- Otherwise the first tree that cannot be used decides the exit, and no tree behind it makes a
  difference. -/
  stopped : (¬∀ tree ∈ options.trees, Usable (loadedFirst disk) (.ofString tree)) →
    ∃ good bad unused, options.trees = good ++ bad :: unused ∧
      (∀ tree ∈ good, Usable (loadedFirst disk) (.ofString tree)) ∧
      ¬Usable (loadedFirst disk) (.ofString bad) ∧
      (run args disk).exit = exitAt (loadedFirst disk (.ofString bad)) ∧
      ∀ others, process disk { options with trees := good ++ bad :: others } = process disk options
  /-- Only four reasons break the run off. -/
  broken_off : ∀ failure, (run args disk).exit = .error failure → IsUnloadable failure

/-- A run with an output folder and settings that can be read takes its trees in order. -/
theorem process_eq {disk : Disk} {options : Options} {output : String} {settings : Settings}
    (houtput : options.output = some output)
    (hsettings : chooseSettings disk options = .ok settings)
    (trees : List String) :
    process disk { options with trees } =
      processTrees settings (some (.ofString output)) ⟨disk, 0, [], none⟩
        (trees.map Path.ofString) := by
  have hchosen : chooseSettings disk { options with trees } = .ok settings := hsettings
  rw [process, hchosen]
  simp only [houtput, Option.map_some]

/-- The trees suit a run: each that can be loaded is made of texts, and each path leads somewhere
from the start or has no double dots. -/
structure Suitable (disk : Disk) (trees : List String) : Prop where
  textual : ∀ tree ∈ trees, ∀ schema,
    loadedFirst disk (.ofString tree) = .ok schema → schema.Textual
  steady : ∀ tree ∈ trees, Steady disk (.ofString tree)

/-- Fewer trees suit a run if all of them do. -/
theorem Suitable.mono {disk : Disk} {trees fewer : List String} (h : Suitable disk trees)
    (hfewer : fewer ⊆ trees) : Suitable disk fewer :=
  ⟨fun tree htree => h.textual tree (hfewer htree), fun tree htree => h.steady tree (hfewer htree)⟩

section Process

variable {disk : Disk} {options : Options} {output : String} {settings : Settings}
  {trees : List String} {pages : List Page} {exit : Except Failure Nat}
  (houtput : options.output = some output) (hsettings : chooseSettings disk options = .ok settings)

include houtput hsettings

/-- A run over trees comes to their composition if nothing hinders it. -/
theorem process_of_composition (hsound : disk.Sound) (htrees : Suitable disk trees)
    (h : Composition settings (loadedFirst disk) 0 (trees.map .ofString) pages exit)
    (hunhindered : Unhindered disk (.ofString output) (trees.map .ofString) pages) :
    (process disk { options with trees }).disk = disk.writeDocuments (.ofString output) pages ∧
      exitOf (process disk { options with trees }).failure = exit := by
  rw [process_eq houtput hsettings]
  refine h.progress (p := ⟨disk, 0, [], none⟩) (by simpa using htrees.textual) rfl rfl
    hunhindered.accepted ?_
  rintro written later rfl tree htree
  refine hunhindered.loadsAlike hsound htree ?_
  obtain ⟨spelling, hspelling, rfl⟩ := List.mem_map.mp htree
  exact htrees.steady spelling hspelling

/-- Trees behind one that ends the run make no difference. -/
theorem process_append (h : (process disk { options with trees }).failure ≠ none)
    (others : List String) :
    process disk { options with trees := trees ++ others } =
      process disk { options with trees } := by
  obtain ⟨failure, hfailure⟩ := Option.ne_none_iff_exists'.mp h
  rw [process_eq houtput hsettings] at hfailure ⊢
  rw [process_eq houtput hsettings, List.map_append]
  exact processTrees_append hfailure rfl _

/-- A run that stops at a tree does so whatever trees stand behind it. -/
theorem process_of_stopped (hsound : disk.Sound) {good unused : List String} {bad : String}
    (htrees : Suitable disk (good ++ bad :: unused))
    (hunhindered :
      Unhindered disk (.ofString output) ((good ++ bad :: unused).map .ofString) pages)
    (h : Composition settings (loadedFirst disk) 0 ((good ++ [bad]).map .ofString) pages
      (exitAt (loadedFirst disk (.ofString bad)))) (others : List String) :
    process disk { options with trees := good ++ bad :: others } =
      process disk { options with trees := good ++ bad :: unused } := by
  have hused : good ++ [bad] ⊆ good ++ bad :: unused := by simp
  obtain ⟨-, hfailure⟩ := process_of_composition houtput hsettings hsound (htrees.mono hused) h
    (hunhindered.mono (List.map_subset _ hused))
  have hfailed : (process disk { options with trees := good ++ [bad] }).failure ≠ none := by
    intro hnone
    rw [hnone] at hfailure
    exact exitAt_ne_zero _ hfailure.symm
  have hsame := process_append houtput hsettings hfailed
  simp only [List.append_assoc, List.singleton_append] at hsame
  rw [hsame others, hsame unused]

end Process

/-- **A run over several trees is the composition of its trees.** The arguments ask for a run with
an output folder and settings that can be read, on a sound disk and over suitable trees. Then the
trees, as they load at the start, have a composition in which nameless protocols are numbered from
zero on. If nothing hinders the run, it leaves exactly the documents of the composition and exits as
the composition says. -/
theorem run_composes (args : List String) (disk : Disk) (options : Options) (output : String)
    (settings : Settings) (hparse : parse args = .run options)
    (houtput : options.output = some output)
    (hsettings : chooseSettings disk options = .ok settings) (hsound : disk.Sound)
    (htrees : Suitable disk options.trees) :
    (∃ pages exit,
      Composition settings (loadedFirst disk) 0 (options.trees.map .ofString) pages exit) ∧
    ∀ pages exit,
      Composition settings (loadedFirst disk) 0 (options.trees.map .ofString) pages exit →
      Unhindered disk (.ofString output) (options.trees.map .ofString) pages →
      RunsAs args disk options (.ofString output) pages exit := by
  refine ⟨exists_composition settings 0 (by simpa using htrees.textual), ?_⟩
  intro pages exit hcomposition hunhindered
  obtain ⟨hdisk, hexit⟩ :=
    process_of_composition houtput hsettings hsound htrees hcomposition hunhindered
  obtain ⟨hrunExit, hrunDisk⟩ := exit_finish (process disk options) options.threshold
  have hrun : run args disk = (process disk options).finish options.threshold := by
    rw [run, hparse]
  rw [← hrun] at hrunExit hrunDisk
  have hcode : (run args disk).exit = exit := hrunExit.trans hexit
  have hfinal : (run args disk).disk = disk.writeDocuments (.ofString output) pages :=
    hrunDisk.trans hdisk
  have hfiles : ∃ location,
      (pages ≠ [] → Disk.LeadsToFolder (run args disk).disk (.ofString output) location) ∧
        Disk.FilesAfter disk location pages (run args disk).disk := by
    obtain ⟨location, hfolder, hfiles, -⟩ := hunhindered.accepted.filesAfter hunhindered.no_slash
    rw [hfinal]
    exact ⟨location, hfolder, hfiles⟩
  rcases hcomposition.cases with ⟨hzero, husable⟩ | ⟨_, _, _, hcut, hgood, hbad, hstop, hothers⟩
  · have hall : ∀ tree ∈ options.trees, Usable (loadedFirst disk) (.ofString tree) := by
      simpa using husable
    refine ⟨hfinal, hfiles, hcode, iff_of_true (hcode.trans hzero) hall, absurd hall, ?_⟩
    intro failure hfailure
    rw [hcode, hzero] at hfailure
    cases hfailure
  · obtain ⟨good, rest, hspellings, rfl, hrest⟩ := List.map_eq_append_iff.mp hcut
    obtain ⟨bad, unused, rfl, rfl, rfl⟩ := List.map_eq_cons_iff.mp hrest
    have hnot : ¬∀ tree ∈ options.trees, Usable (loadedFirst disk) (.ofString tree) :=
      fun hall => hbad (hall bad (by simp [hspellings]))
    have hcode' := hcode.trans hstop
    refine ⟨hfinal, hfiles, hcode, iff_of_false (hcode' ▸ exitAt_ne_zero _) hnot, fun _ => ?_, ?_⟩
    · refine ⟨good, bad, unused, hspellings, by simpa using hgood, hbad, hcode', fun others => ?_⟩
      have hsame := process_of_stopped houtput hsettings hsound (hspellings ▸ htrees)
        (hspellings ▸ hunhindered) (by simpa [hstop] using hothers []) others
      rwa [← hspellings] at hsame
    · intro failure hfailure
      rw [hcode'] at hfailure
      exact exitAt_loadedFirst hfailure

/-- The fields of a tree that declares a single protocol without methods. -/
def soleProtocol (name : String) : List (String × Value) :=
  [("rootNamespace", .object [("elements", .list [.object [("body", .object
    [("_type", .text "DDLProtocolDeclaration"),
      ("declaration", .object [("nameSpaceItem", .object [("parseTreeItem1", .object
        [("name", .object [("value", .text name)])])])]),
      ("methods", .object [("elements", .list [])])])]])])]

/-- A working folder with two trees. The first declares a protocol, the second is no text. -/
def twoTrees : Disk :=
  ⟨["w"], [(["w"], .folder),
    (["w", "a.json"], .file (String.ofList (Json.spell (.object (soleProtocol "Auth")))).toUTF8),
    (["w", "b.json"], .file ⟨#[0xff]⟩)]⟩

namespace twoTrees

/-- Every location of the disk lies in a folder. -/
theorem sound : twoTrees.Sound :=
  Disk.sound_of_entries rfl (by decide)

/-- The first tree is a protocol without methods. -/
theorem loads_first :
    loadedFirst twoTrees (.ofString "a.json") = .ok [.protocol ⟨.text "Auth", []⟩] := by
  have hread : twoTrees.readFile (.ofString "a.json") =
      .ok (String.ofList (Json.spell (.object (soleProtocol "Auth")))).toUTF8 := rfl
  rw [loadedFirst, loadTree_of_spelled hread (by decide) (by decide)]
  rfl

/-- The second tree is no text. -/
theorem loads_second : loadedFirst twoTrees (.ofString "b.json") = .error .notText :=
  rfl

/-- The trees suit a run. -/
theorem suitable : Suitable twoTrees ["a.json", "b.json"] := by
  refine ⟨?_, ?_⟩
  · simp only [List.forall_mem_cons, loads_first, loads_second]
    refine ⟨fun schema h => ?_, fun schema h => ?_, List.forall_mem_nil _⟩
    · cases h
      intro d hd
      rw [List.mem_singleton.mp hd]
      exact ⟨Or.inr ⟨_, rfl⟩, List.forall_mem_nil _⟩
    · cases h
  · simp only [List.forall_mem_cons]
    exact ⟨Or.inr ⟨_, rfl⟩, Or.inr ⟨_, rfl⟩, List.forall_mem_nil _⟩

/-- The document of the first tree. -/
def document : String :=
  "## [NEX-Protocols](https://github.com/kinnay/NintendoClients/wiki/NEX-Protocols) > Auth " ++
    "(Unknown ID)\n\n| Method ID | Method Name |\n| --- | --- |"

/-- The protocol is rendered to the document. -/
theorem render_eq :
    (definitionAt {} 0 [] ⟨.text "Auth", []⟩).render {} (some {}) = .ok document := by
  decide +kernel

/-- The document can be encoded. -/
theorem encode_document : Text.encode? document = some document.toUTF8 :=
  Text.encode?_append (Text.encode?_ofList (by decide)) (Text.encode?_ofList (by decide))

/-- The document is written together with its folder. -/
theorem writeDocument_eq :
    twoTrees.writeDocument (.ofString "docs") "Auth.md" document =
      (⟨["w"], twoTrees.entries ++ [(["w", "docs"], .folder),
        (["w", "docs", "Auth.md"], .file document.toUTF8)]⟩,
        .ok ⟨.working, ["docs", "Auth.md"]⟩) := by
  unfold Disk.writeDocument
  rw [Disk.ensureFolders]
  simp only [encode_document]
  rfl

/-- Nothing hinders the run that writes the document. -/
theorem unhindered :
    Unhindered twoTrees (.ofString "docs") (["a.json", "b.json"].map .ofString)
      [("Auth.md", document)] := by
  refine ⟨?_, ⟨⟨_, congrArg Prod.snd writeDocument_eq⟩, trivial⟩, ?_⟩
  · intro page hpage
    rw [List.mem_singleton.mp hpage]
    show '/' ∉ "Auth.md".toList
    decide
  · intro page hpage
    rw [List.mem_singleton.mp hpage]
    simp only [Disk.writeDocuments, writeDocument_eq, List.map_cons, List.map_nil,
      List.forall_mem_cons]
    refine ⟨fun h => ?_, fun h => ?_, List.forall_mem_nil _⟩
    · have hplaces : ["w", "docs", "Auth.md"] = ["w", "a.json"] := Except.ok.inj h
      exact absurd hplaces (by decide)
    · have hplaces : ["w", "docs", "Auth.md"] = ["w", "b.json"] := Except.ok.inj h
      exact absurd hplaces (by decide)

end twoTrees

/-- The run over both trees writes the document of the first and breaks off at the second. -/
theorem run_twoTrees :
    (run ["a.json", "b.json"] twoTrees).exit = .error .notText ∧
    Disk.entry? (run ["a.json", "b.json"] twoTrees).disk ["w", "docs", "Auth.md"] =
      some (.file twoTrees.document.toUTF8) := by
  have hpages : PagesOf {} 0 [.protocol ⟨.text "Auth", []⟩] [("Auth.md", twoTrees.document)] :=
    ⟨_, Segmented.nil.concat_protocol _, .cons ⟨rfl, twoTrees.render_eq⟩ .nil⟩
  have hcomposition : Composition {} (loadedFirst twoTrees) 0
      (["a.json", "b.json"].map .ofString) [("Auth.md", twoTrees.document)] (.error .notText) :=
    .next twoTrees.loads_first (by simp [Schema.Directed, Schema.protocols, Declaration.protocol?])
      hpages (.unloaded twoTrees.loads_second)
  obtain ⟨-, hruns⟩ := run_composes ["a.json", "b.json"] twoTrees _ "docs" {} rfl rfl rfl
    twoTrees.sound twoTrees.suitable
  have hrun := hruns _ _ hcomposition twoTrees.unhindered
  refine ⟨hrun.exit_eq, ?_⟩
  rw [hrun.disk_eq]
  simp only [Disk.writeDocuments, twoTrees.writeDocument_eq]
  rfl

/-- A tree that is no text does not make the command exit with code one, though nothing hinders the
run. -/
theorem run_unreadableTree :
    twoTrees.Sound ∧ Suitable twoTrees ["b.json"] ∧
      ¬Usable (loadedFirst twoTrees) (.ofString "b.json") ∧
      Unhindered twoTrees (.ofString "docs") [.ofString "b.json"] [] ∧
      (run ["b.json"] twoTrees).exit = .error .notText := by
  refine ⟨twoTrees.sound, twoTrees.suitable.mono (by simp), ?_, ⟨by simp, trivial, by simp⟩, rfl⟩
  rintro ⟨schema, hschema, -⟩
  rw [twoTrees.loads_second] at hschema
  cases hschema

end Command

end ProtocolPages
