import ProtocolPages.Output.Generate
import ProtocolPages.Proofs.Segmentation

/-!
# Schemas made of texts

Names and types are held as arbitrary values and are used as texts all over the rendering. When they
are texts throughout, none of these uses can go wrong: what a walk hands to its visits is again made
of texts, and every document can be rendered. The only way left to fail is a parameter that has no
direction.
-/

namespace ProtocolPages

/-- The value is a text. -/
def Value.IsText (v : Value) : Prop :=
  ∃ s, v = .text s

/-- The value is a text, or no value at all. -/
def Value.IsTextOrNull (v : Value) : Prop :=
  v = .null ∨ v.IsText

/-- The member has texts for its name and type. -/
structure Member.Textual (m : Member) : Prop where
  name : m.name.IsText
  type : m.type.IsText

/-- The record has texts for its name and its members; it may lack a parent. -/
structure Record.Textual (r : Record) : Prop where
  name : r.name.IsText
  parent : r.parent.IsTextOrNull
  members : ∀ m ∈ r.members, m.Textual

/-- The parameter has texts for its name and type. Its tag may be any value. -/
structure Parameter.Textual (p : Parameter) : Prop where
  name : p.name.IsText
  type : p.type.IsText

/-- The method has texts for its name and its parameters. -/
structure MethodDeclaration.Textual (m : MethodDeclaration) : Prop where
  name : m.name.IsText
  parameters : ∀ p ∈ m.parameters, p.Textual

/-- The protocol has texts for its methods; it may lack a name. -/
structure ProtocolDeclaration.Textual (p : ProtocolDeclaration) : Prop where
  name : p.name.IsTextOrNull
  methods : ∀ m ∈ p.methods, m.Textual

/-- The declaration is made of texts. -/
def Declaration.Textual : Declaration → Prop
  | .record r => r.Textual
  | .protocol p => p.Textual

/-- All declarations of the schema are made of texts. -/
def Schema.Textual (schema : Schema) : Prop :=
  ∀ d ∈ schema, d.Textual

/-- Some parameter that is no return value has a tag other than the whole numbers one and two. -/
def Schema.HasUndirected (schema : Schema) : Prop :=
  ∃ p ∈ schema.protocols, ∃ m ∈ p.methods, ∃ q ∈ m.parameters,
    q.isReturn = false ∧ q.tag ≠ .integer 1 ∧ q.tag ≠ .integer 2

/-- A parameter without a direction is what keeps a schema from being directed. -/
theorem Schema.hasUndirected_iff {schema : Schema} :
    schema.HasUndirected ↔ ¬schema.Directed := by
  simp [HasUndirected, Directed, MethodDeclaration.Directed, Parameter.Directed]

/-! ## Rendering texts -/

/-- A divided method whose parameters are made of texts. -/
structure Method.Textual (m : Method) : Prop where
  request : ∀ p ∈ m.request, p.Textual
  response : ∀ p ∈ m.response, p.Textual

/-- A protocol that is made of texts. -/
structure Protocol.Textual (p : Protocol) : Prop where
  name : p.name.IsText
  methods : ∀ m ∈ p.methods, m.Textual
  records : ∀ r ∈ p.records, r.Textual

section Rendering

variable {active : Settings} {records : List Record}

/-- Texts can be looked up. -/
theorem exists_localNames (h : ∀ r ∈ records, r.name.IsText) :
    ∃ names, localNames records = .ok names := by
  have hkeys : records.all (·.name.isKey) = true := by
    rw [List.all_eq_true]
    intro r hr
    obtain ⟨s, hs⟩ := h r hr
    rw [hs]
    rfl
  exact ⟨_, if_pos hkeys⟩

/-- Records with texts for their names have a resolver. -/
theorem exists_ofRecords (active settings : Settings) (h : ∀ r ∈ records, r.name.IsText) :
    ∃ resolver, Resolver.ofRecords active (some settings) records = .ok resolver := by
  obtain ⟨names, hnames⟩ := exists_localNames h
  exact ⟨⟨names, settings⟩, by rw [Resolver.ofRecords, hnames]; rfl⟩

/-- The fields and rows of a parameter made of texts can be made. -/
theorem Parameter.Textual.exists_fields {p : Parameter} (h : p.Textual) (settings : Settings)
    (resolver : Resolver) :
    (∃ field, Method.inputField resolver p = .ok field) ∧
      (∃ field, Method.outputField settings resolver p = .ok field) ∧
      ∃ row, Method.parameterRow resolver p = .ok row := by
  obtain ⟨⟨name, hname⟩, ⟨type, htype⟩⟩ := h
  refine ⟨?_, ?_, ?_⟩
  · rw [Method.inputField, hname, htype]
    exact ⟨_, rfl⟩
  · rw [Method.outputField, hname, htype]
    exact ⟨_, rfl⟩
  · rw [Method.parameterRow, htype]
    exact ⟨_, rfl⟩

/-- A method made of texts can be rendered; of the records, only the names matter. -/
theorem Method.Textual.exists_render {m : Method} (h : m.Textual) (active settings : Settings)
    (index : Int) (hrecords : ∀ r ∈ records, r.name.IsText) :
    ∃ fragment, m.render active (some settings) index records = .ok fragment := by
  obtain ⟨resolver, hresolver⟩ := exists_ofRecords active settings hrecords
  obtain ⟨inputs, hinputs⟩ := exists_mapM_eq_ok fun p hp =>
    ((h.request p hp).exists_fields settings resolver).1
  obtain ⟨outputs, houtputs⟩ := exists_mapM_eq_ok fun p hp =>
    ((h.response p hp).exists_fields settings resolver).2.1
  obtain ⟨requestRows, hrequestRows⟩ := exists_mapM_eq_ok fun p hp =>
    ((h.request p hp).exists_fields settings resolver).2.2
  obtain ⟨responseRows, hresponseRows⟩ := exists_mapM_eq_ok fun p hp =>
    ((h.response p hp).exists_fields settings resolver).2.2
  rw [Method.render, Settings.choose_some, hresolver]
  simp only [Bind.bind, Except.bind, hinputs, houtputs, hrequestRows, hresponseRows]
  exact ⟨_, rfl⟩

/-- The parent of a record made of texts can be resolved. -/
theorem Record.Textual.exists_parent {r : Record} (h : r.Textual) (settings : Settings)
    (resolver : Resolver) :
    ∃ parent, resolver.resolveValue (r.parentSpelling settings) = .ok parent := by
  unfold Record.parentSpelling
  split
  · exact ⟨_, rfl⟩
  · next hvacant =>
    rcases h.parent with hnull | ⟨s, hs⟩
    · rw [hnull] at hvacant
      exact absurd rfl hvacant
    · rw [hs]
      exact ⟨_, rfl⟩

/-- A record made of texts can be rendered; of the other records, only the names matter. -/
theorem Record.Textual.exists_render {r : Record} (h : r.Textual) (active settings : Settings)
    (hrecords : ∀ r ∈ records, r.name.IsText) :
    ∃ fragment, r.render active (some settings) records = .ok fragment := by
  obtain ⟨resolver, hresolver⟩ := exists_ofRecords active settings hrecords
  obtain ⟨parent, hparent⟩ := h.exists_parent settings resolver
  obtain ⟨members, hmembers⟩ : ∃ members,
      r.members.mapM (Record.resolveMember resolver) = .ok members := by
    refine exists_mapM_eq_ok fun m hm => ?_
    obtain ⟨⟨name, hname⟩, ⟨type, htype⟩⟩ := h.members m hm
    rw [Record.resolveMember, hname, htype]
    exact ⟨_, rfl⟩
  rw [Record.render, Settings.choose_some, hresolver]
  simp only [Bind.bind, Except.bind, hparent, hmembers]
  exact ⟨_, rfl⟩

/-- A protocol made of texts has a document. -/
theorem Protocol.Textual.exists_render {p : Protocol} (h : p.Textual)
    (active settings : Settings) :
    ∃ text, p.render active (some settings) = .ok text := by
  have hnames : ∀ r ∈ p.records, r.name.IsText := fun r hr => (h.records r hr).name
  obtain ⟨methods, hmethods⟩ : ∃ sections, p.methodSections active settings = .ok sections := by
    refine exists_mapM_eq_ok fun ⟨m, index⟩ hm => ?_
    obtain ⟨fragment, hfragment⟩ :=
      (h.methods m (List.fst_mem_of_mem_zipIdx hm)).exists_render active settings index hnames
    exact ⟨fragment.doc, by simp only [hfragment]; rfl⟩
  obtain ⟨sections, hsections⟩ : ∃ sections, p.records.mapM (fun r => do
      return (← r.render active (some settings) p.records).doc) = .ok sections := by
    refine exists_mapM_eq_ok fun r hr => ?_
    obtain ⟨fragment, hfragment⟩ := (h.records r hr).exists_render active settings hnames
    exact ⟨fragment.doc, by rw [hfragment]; rfl⟩
  obtain ⟨records, hrecords⟩ : ∃ sections, p.recordSections active settings = .ok sections := by
    unfold Protocol.recordSections
    split
    · exact ⟨[], rfl⟩
    · exact ⟨_, by rw [hsections]; rfl⟩
  exact ⟨_, by rw [Protocol.render, Settings.choose_some, hmethods, hrecords]; rfl⟩

end Rendering

/-! ## Walks over texts -/

/-- A nameless protocol gets a text for a name, and a text is kept. -/
theorem isText_protocolName (settings : Settings) (counter : Int) {declared : Value}
    (h : declared.IsTextOrNull) : (protocolName settings counter declared).IsText := by
  cases hvacant : declared.isVacant with
  | true =>
    rw [protocolName, nameProtocol_of_nameless hvacant]
    exact ⟨_, rfl⟩
  | false =>
    rw [protocolName, nameProtocol_of_named hvacant]
    rcases h with rfl | htext
    · cases hvacant
    · exact htext

/-- Dividing a method made of texts leaves texts. -/
theorem MethodDeclaration.Textual.divided {m : MethodDeclaration} (h : m.Textual) :
    m.divided.Textual where
  request p hp := h.parameters p (List.mem_filter.mp hp).1
  response p hp := by
    rcases List.mem_append.mp hp with hreturn | houtput
    · exact h.parameters p (List.mem_filter.mp hreturn).1
    · exact h.parameters p (List.mem_filter.mp houtput).1

/-- What is made of a protocol and the records that wait for it is made of texts if they are. -/
theorem ProtocolDeclaration.Textual.extracted {p : ProtocolDeclaration} (h : p.Textual)
    {records : List Record} (hrecords : ∀ r ∈ records, r.Textual) (settings : Settings)
    (counter : Int) (id : String) :
    Protocol.Textual ⟨protocolName settings counter p.name, id,
      p.methods.map MethodDeclaration.divided, records⟩ where
  name := isText_protocolName settings counter h.name
  methods m hm := by
    obtain ⟨declared, hdeclared, rfl⟩ := List.mem_map.mp hm
    exact (h.methods declared hdeclared).divided
  records := hrecords

/-- The definition of a protocol in a schema made of texts is made of texts. -/
theorem textual_definitionAt {before after : Schema} {q : ProtocolDeclaration}
    (h : Schema.Textual (before ++ .protocol q :: after)) (settings : Settings) (counter : Int) :
    (definitionAt settings counter before q).Textual := by
  obtain ⟨hbefore, hrest⟩ := List.forall_mem_append.mp h
  have hq : q.Textual := hrest _ List.mem_cons_self
  have hrecords : ∀ r ∈ Schema.trailing before, r.Textual :=
    fun r hr => hbefore _ (Schema.mem_of_mem_trailing hr)
  have hextracted := hq.extracted hrecords settings (counter + Schema.nameless before)
    settings.unknownProtocolId
  rw [protocolName_eq_definitionAt] at hextracted
  exact hextracted

/-- What is cut out of texts is made of texts. -/
theorem Segmented.textual {settings : Settings} {counter : Int} {schema : Schema}
    {found : List Protocol} (h : Segmented settings counter schema found)
    (htextual : schema.Textual) : ∀ p ∈ found, p.Textual := by
  intro p hp
  obtain ⟨i, hi⟩ := List.getElem?_of_mem hp
  obtain ⟨before, q, after, rfl, -, rfl⟩ := h.eq_definitionAt hi
  exact textual_definitionAt htextual settings counter

/-- Records made of texts can be dropped. -/
theorem dropPending_of_textual {counter : Int} {records : List Record}
    (h : ∀ r ∈ records, r.Textual) : (dropPending counter records).pull.failure? = none := by
  unfold dropPending
  split
  · rfl
  · obtain ⟨names, hnames⟩ := exists_names_of_texts fun r hr => (h r hr).name
    rw [hnames]
    rfl

/-- How a run over a schema ends when nothing but a direction can go wrong: it fails exactly if some
parameter has no direction, and with the error that says so. -/
def FailsByDirection (schema : Schema) (failure : Option Failure) : Prop :=
  (failure = none ∨ ∃ e, failure = some (.direction e)) ∧
    ((∃ e, failure = some (.direction e)) ↔ schema.HasUndirected)

/-- A run without failure over a directed schema, or one that reports a direction over another. -/
theorem failsByDirection_iff {schema : Schema} {failure : Option Failure} :
    FailsByDirection schema failure ↔ (schema.Directed ∧ failure = none) ∨
      (¬schema.Directed ∧ ∃ e, failure = some (.direction e)) := by
  unfold FailsByDirection
  rw [Schema.hasUndirected_iff]
  constructor
  · rintro ⟨rfl | ⟨e, rfl⟩, hiff⟩
    · refine Or.inl ⟨?_, rfl⟩
      by_contra hnot
      obtain ⟨e, he⟩ := hiff.mpr hnot
      cases he
    · exact Or.inr ⟨hiff.mp ⟨e, rfl⟩, e, rfl⟩
  · rintro (⟨hdirected, rfl⟩ | ⟨hnot, e, rfl⟩)
    · exact ⟨Or.inl rfl, iff_of_false (by simp) (not_not_intro hdirected)⟩
    · exact ⟨Or.inr ⟨e, rfl⟩, iff_of_true ⟨e, rfl⟩ hnot⟩

/-- A walk over texts fails by direction only, if its visits do not fail on texts. -/
theorem Cursor.walk_textual {σ : Type} {visit : σ → Protocol → Visit σ}
    (hvisit : ∀ state p, p.Textual → (visit state p).failure = none) (settings : Settings)
    {schema : Schema} (hschema : schema.Textual) {pending : List Record}
    (hpending : ∀ r ∈ pending, r.Textual) (counter : Int) (state : σ) :
    FailsByDirection schema
      ((Cursor.mk settings schema pending).walk visit counter state).failure := by
  rw [failsByDirection_iff]
  induction schema generalizing pending counter state with
  | nil =>
    rw [walk_nil]
    refine Or.inl ⟨?_, dropPending_of_textual hpending⟩
    simp [Schema.Directed, Schema.protocols]
  | cons d rest ih =>
    obtain ⟨hfirst, hrest⟩ := List.forall_mem_cons.mp hschema
    cases d with
    | record r =>
      rw [walk_record, Schema.directed_cons_record]
      refine ih hrest (fun q hq => ?_) counter state
      rcases List.mem_append.mp hq with hbefore | hlast
      · exact hpending q hbefore
      · obtain rfl := List.mem_singleton.mp hlast
        exact hfirst
    | protocol p =>
      rw [Schema.directed_cons_protocol]
      have hextracted := ProtocolDeclaration.Textual.extracted hfirst hpending settings counter
        settings.unknownProtocolId
      rcases toMethods_cases (protocolName settings counter p.name) p.methods with
        ⟨hdirected, hmethods⟩ | ⟨hnot, e, herror⟩
      · rw [walk_protocol_of_ok hmethods (hvisit state _ hextracted)]
        have hnothing : ∀ r ∈ ([] : List Record), r.Textual := by simp
        rcases ih hrest hnothing (nameProtocol settings counter p.name).2.1 _ with
          ⟨hothers, hnone⟩ | ⟨hothers, e, he⟩
        · exact Or.inl ⟨⟨hdirected, hothers⟩, hnone⟩
        · exact Or.inr ⟨fun h => hothers h.2, e, he⟩
      · rw [walk_protocol_of_error herror]
        exact Or.inr ⟨fun h => hnot h.1, e, rfl⟩

/-- A protocol made of texts gets its document. -/
theorem addDocument_of_textual (active settings : Settings) (documents : Documents) {p : Protocol}
    (h : p.Textual) : (addDocument active settings documents p).failure = none := by
  obtain ⟨name, hname⟩ := h.name
  obtain ⟨text, htext⟩ := h.exists_render active settings
  have hkey : p.name.isKey = true := by rw [hname]; rfl
  simp only [addDocument, hkey, htext, if_true]

/-- The document of a protocol made of texts can be kept in memory. -/
theorem publish_memory_of_textual (active settings : Settings) (folder : Path)
    (state : Publication Shelf) {p : Protocol} (h : p.Textual) :
    (publish active settings .memory folder state p).failure = none := by
  obtain ⟨name, hname⟩ := h.name
  obtain ⟨text, htext⟩ := h.exists_render active settings
  have hkey : p.name.isKey = true := by rw [hname]; rfl
  simp only [publish, hkey, htext, if_true, Writer.memory]

/-- **Schemas made of texts are safe.** Extracting their protocols, rendering their documents and
keeping the documents in memory either succeed or fail because of a direction. They fail exactly if
some parameter that is no return value has a tag other than the whole numbers one and two. -/
theorem textual_runs_fail_by_direction (schema : Schema) (htextual : schema.Textual)
    (active settings : Settings) (counter : Int) (shelf : Shelf) (folder : Path) :
    FailsByDirection schema (extract active (some settings) counter schema).failure ∧
    FailsByDirection schema (buildDocuments active (some settings) counter schema).failure ∧
    FailsByDirection schema
      (generate active (some settings) .memory shelf folder counter schema).failure := by
  refine ⟨?_, ?_, ?_⟩
  · exact Cursor.walk_textual (fun _ _ _ => rfl) settings htextual (by simp) counter []
  · exact Cursor.walk_textual
      (fun documents p hp => addDocument_of_textual active settings documents hp)
      settings htextual (by simp) counter []
  · exact Cursor.walk_textual (fun state p hp =>
      publish_memory_of_textual active settings folder state hp)
      settings htextual (by simp) counter ⟨shelf, [], []⟩

/-- A nameless protocol, with a record that has no parent. One parameter is tagged with a truth
value and is no request for that. -/
def looselyTaggedSchema : Schema :=
  [.record ⟨.text "Key", .null, [⟨.text "id", .text "uint32"⟩]⟩,
    .protocol ⟨.null, [⟨.text "Login",
      [⟨.text "%retval%", .text "qresult", .real (.ofRatio false 1 1), true⟩,
        ⟨.text "user", .text "Key", .boolean true, false⟩]⟩]⟩,
    .record ⟨.text "Leftover", .text "Key", []⟩]

/-- Tags that are no whole numbers, on parameters made of texts: each way to run the schema fails by
their direction. -/
theorem looselyTagged_runs_fail :
    looselyTaggedSchema.Textual ∧ looselyTaggedSchema.HasUndirected ∧
    (∃ e, (extract {} (some {}) 0 looselyTaggedSchema).failure = some (.direction e)) ∧
    (∃ e, (buildDocuments {} (some {}) 0 looselyTaggedSchema).failure = some (.direction e)) ∧
    ∃ e, (generate {} (some {}) .memory [] .working 0 looselyTaggedSchema).failure =
      some (.direction e) := by
  have htextual : looselyTaggedSchema.Textual := by
    simp only [looselyTaggedSchema, Schema.Textual, List.forall_mem_cons, Declaration.Textual]
    refine ⟨⟨⟨_, rfl⟩, Or.inl rfl, fun m hm => ?_⟩, ⟨Or.inl rfl, fun m hm => ?_⟩,
      ⟨⟨_, rfl⟩, Or.inr ⟨_, rfl⟩, nofun⟩, nofun⟩
    · obtain rfl := List.mem_singleton.mp hm
      exact ⟨⟨_, rfl⟩, ⟨_, rfl⟩⟩
    · obtain rfl := List.mem_singleton.mp hm
      refine ⟨⟨_, rfl⟩, fun p hp => ?_⟩
      simp only [List.mem_cons, List.not_mem_nil, or_false] at hp
      rcases hp with rfl | rfl <;> exact ⟨⟨_, rfl⟩, ⟨_, rfl⟩⟩
  have hundirected : looselyTaggedSchema.HasUndirected :=
    ⟨_, List.mem_cons_self, _, List.mem_cons_self, _,
      List.mem_cons_of_mem _ List.mem_cons_self, rfl, nofun, nofun⟩
  obtain ⟨hextract, hbuild, hgenerate⟩ :=
    textual_runs_fail_by_direction looselyTaggedSchema htextual {} {} 0 [] .working
  exact ⟨htextual, hundirected, hextract.2.mpr hundirected, hbuild.2.mpr hundirected,
    hgenerate.2.mpr hundirected⟩

end ProtocolPages
