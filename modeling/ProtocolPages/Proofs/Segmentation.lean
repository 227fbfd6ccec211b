import ProtocolPages.Proofs.Division
import ProtocolPages.Proofs.Walk
import Mathlib.Data.List.DropRight
import Mathlib.Data.List.Induction

/-!
# Extraction as segmentation

Extraction cuts a schema behind each of its protocols. Where each protocol, each record and each
number ends up can be read off the part of the schema in front of the protocol, without following
the walk. The proof is a loop invariant at an arbitrary cut of the schema: what waits there are the
records behind the last protocol, and the counter has moved on by the nameless protocols so far.
-/

namespace ProtocolPages

/-- The record that is declared, if it is one. -/
def Declaration.record? : Declaration → Option Record
  | .record r => some r
  | .protocol _ => none

/-- The protocol that is declared, if it is one. -/
def Declaration.protocol? : Declaration → Option ProtocolDeclaration
  | .record _ => none
  | .protocol p => some p

namespace Schema

/-- The records of a schema, in order. -/
def records (schema : Schema) : List Record :=
  schema.filterMap Declaration.record?

/-- The protocols of a schema, in order. -/
def protocols (schema : Schema) : List ProtocolDeclaration :=
  schema.filterMap Declaration.protocol?

/-- The records behind the last protocol: those of the longest tail that declares records only. -/
def trailing (schema : Schema) : List Record :=
  Schema.records (schema.rtakeWhile (·.record?.isSome))

/-- The number of protocols that declare no name. -/
def nameless (schema : Schema) : Nat :=
  schema.protocols.countP (·.name.isVacant)

/-- Each parameter of each method of each protocol has a direction. -/
def Directed (schema : Schema) : Prop :=
  ∀ p ∈ schema.protocols, ∀ m ∈ p.methods, m.Directed

/-- Records have no parameters. -/
theorem directed_cons_record {r : Record} {schema : Schema} :
    Directed (.record r :: schema) ↔ schema.Directed := by
  simp [Directed, protocols, Declaration.protocol?]

/-- The parameters of a schema are those of its first protocol and of the rest. -/
theorem directed_cons_protocol {p : ProtocolDeclaration} {schema : Schema} :
    Directed (.protocol p :: schema) ↔ (∀ m ∈ p.methods, m.Directed) ∧ schema.Directed := by
  simp [Directed, protocols, Declaration.protocol?]

@[simp] theorem trailing_nil : trailing [] = [] := rfl

@[simp] theorem nameless_nil : nameless [] = 0 := rfl

section Concat

variable (schema : Schema) (r : Record) (p : ProtocolDeclaration)

@[simp] theorem records_concat_record :
    records (schema ++ [.record r]) = schema.records ++ [r] := by
  simp [records, Declaration.record?]

@[simp] theorem records_concat_protocol : records (schema ++ [.protocol p]) = schema.records := by
  simp [records, Declaration.record?]

@[simp] theorem protocols_concat_record :
    protocols (schema ++ [.record r]) = schema.protocols := by
  simp [protocols, Declaration.protocol?]

@[simp] theorem protocols_concat_protocol :
    protocols (schema ++ [.protocol p]) = schema.protocols ++ [p] := by
  simp [protocols, Declaration.protocol?]

@[simp] theorem trailing_concat_record :
    trailing (schema ++ [.record r]) = schema.trailing ++ [r] := by
  rw [trailing, List.rtakeWhile_concat_pos _ _ _ rfl, records_concat_record]
  rfl

@[simp] theorem trailing_concat_protocol : trailing (schema ++ [.protocol p]) = [] := by
  rw [trailing, List.rtakeWhile_concat_neg _ _ _ (by simp [Declaration.record?])]
  rfl

@[simp] theorem nameless_concat_record : nameless (schema ++ [.record r]) = schema.nameless := by
  simp [nameless]

@[simp] theorem nameless_concat_protocol :
    nameless (schema ++ [.protocol p]) =
      schema.nameless + if p.name.isVacant then 1 else 0 := by
  simp [nameless, List.countP_append, List.countP_singleton]

end Concat

end Schema

/-- Each protocol of a schema has a place in it. -/
theorem Schema.exists_cut {schema : Schema} {i : Nat} (h : i < schema.protocols.length) :
    ∃ before p after, schema = before ++ .protocol p :: after ∧
      (Schema.protocols before).length = i := by
  induction schema generalizing i with
  | nil => exact absurd h (Nat.not_lt_zero i)
  | cons d rest ih =>
    cases d with
    | record r =>
      obtain ⟨before, p, after, rfl, hlength⟩ := ih h
      exact ⟨.record r :: before, p, after, rfl, hlength⟩
    | protocol q =>
      cases i with
      | zero => exact ⟨[], q, rest, rfl, rfl⟩
      | succ i =>
        obtain ⟨before, p, after, rfl, hlength⟩ := ih (Nat.lt_of_succ_lt_succ h)
        exact ⟨.protocol q :: before, p, after, rfl, congrArg Nat.succ hlength⟩

/-- A schema that is not directed has a first protocol that is bad. -/
theorem Schema.exists_first_undirected {schema : Schema} (h : ¬schema.Directed) :
    ∃ before p after, schema = before ++ .protocol p :: after ∧ Schema.Directed before ∧
      ¬∀ m ∈ p.methods, m.Directed := by
  induction schema with
  | nil => exact absurd (by simp [Schema.Directed, Schema.protocols]) h
  | cons d rest ih =>
    cases d with
    | record r =>
      rw [Schema.directed_cons_record] at h
      obtain ⟨before, p, after, rfl, hbefore, hbad⟩ := ih h
      exact ⟨.record r :: before, p, after, rfl, Schema.directed_cons_record.mpr hbefore, hbad⟩
    | protocol q =>
      by_cases hq : ∀ m ∈ q.methods, m.Directed
      · have hrest : ¬Schema.Directed rest :=
          fun hrest => h (Schema.directed_cons_protocol.mpr ⟨hq, hrest⟩)
        obtain ⟨before, p, after, rfl, hbefore, hbad⟩ := ih hrest
        exact ⟨.protocol q :: before, p, after, rfl,
          Schema.directed_cons_protocol.mpr ⟨hq, hbefore⟩, hbad⟩
      · exact ⟨[], q, rest, rfl, by simp [Schema.Directed, Schema.protocols], hq⟩

/-- The records behind the last protocol are declared in the schema. -/
theorem Schema.mem_of_mem_trailing {schema : Schema} {r : Record} (h : r ∈ schema.trailing) :
    Declaration.record r ∈ schema := by
  obtain ⟨d, hd, hr⟩ := List.mem_filterMap.mp h
  cases d with
  | protocol p => cases hr
  | record r' =>
    cases hr
    exact (List.rtakeWhile_suffix _ schema).subset hd

/-- A declaration in a schema is its last one or stands in front of that. -/
private theorem concat_cut {schema before after : Schema} {last d : Declaration}
    (h : schema ++ [last] = before ++ d :: after) :
    (before = schema ∧ d = last) ∨ ∃ init, schema = before ++ d :: init := by
  rcases List.eq_nil_or_concat after with rfl | ⟨init, x, rfl⟩
  · obtain ⟨hbefore, hlast⟩ := List.append_inj' h rfl
    exact Or.inl ⟨hbefore.symm, (List.singleton_inj.mp hlast).symm⟩
  · have hinit : schema ++ [last] = (before ++ d :: init) ++ [x] := by simpa using h
    exact Or.inr ⟨init, (List.append_inj' hinit rfl).1⟩

/-- The definition of the protocol `p` that stands behind `before`, when the walk over `before`
starts with the given counter. -/
def definitionAt (settings : Settings) (counter : Int) (before : Schema)
    (p : ProtocolDeclaration) : Protocol where
  name :=
    if p.name.isVacant then
      .text (settings.unknownProtocolPrefix ++ " - " ++ toString (counter + before.nameless))
    else p.name
  id := settings.unknownProtocolId
  methods := p.methods.map MethodDeclaration.divided
  records := before.trailing

/-- The protocols `found` are those of the schema, cut out with nothing lost. -/
structure Segmented (settings : Settings) (counter : Int) (schema : Schema)
    (found : List Protocol) : Prop where
  /-- There is one for each declared protocol. -/
  length_eq : found.length = schema.protocols.length
  /-- At the position of each declared protocol stands its definition. -/
  get?_eq : ∀ (before : Schema) (p : ProtocolDeclaration) (after : Schema),
    schema = before ++ .protocol p :: after →
      found[before.protocols.length]? = some (definitionAt settings counter before p)
  /-- Their records, followed by those behind the last protocol, are all the records. -/
  records_eq : found.flatMap Protocol.records ++ schema.trailing = schema.records

namespace Segmented

variable {active settings : Settings} {counter : Int} {schema : Schema} {found : List Protocol}

/-- Nothing is cut out of nothing. -/
theorem nil : Segmented settings counter [] [] where
  length_eq := rfl
  get?_eq before p after h := by simp at h
  records_eq := rfl

/-- A record at the end waits behind the last protocol. -/
theorem concat_record (h : Segmented settings counter schema found) (r : Record) :
    Segmented settings counter (schema ++ [.record r]) found where
  length_eq := by simpa using h.length_eq
  get?_eq before p after heq := by
    rcases concat_cut heq with ⟨_, hlast⟩ | ⟨init, hinit⟩
    · exact nomatch hlast
    · exact h.get?_eq before p init hinit
  records_eq := by rw [Schema.trailing_concat_record, ← List.append_assoc, h.records_eq]; simp

/-- A protocol at the end gets the next definition and takes the records that wait. -/
theorem concat_protocol (h : Segmented settings counter schema found) (p : ProtocolDeclaration) :
    Segmented settings counter (schema ++ [.protocol p])
      (found ++ [definitionAt settings counter schema p]) where
  length_eq := by simp [h.length_eq]
  get?_eq before q after heq := by
    rcases concat_cut heq with ⟨rfl, hlast⟩ | ⟨init, hinit⟩
    · cases hlast
      rw [← h.length_eq]
      simp
    · have hget := h.get?_eq before q init hinit
      rw [List.getElem?_append_left (List.getElem?_eq_some_iff.mp hget).1, hget]
  records_eq := by
    have hrecords := h.records_eq
    simpa [definitionAt] using hrecords

/-- Each protocol that is cut out is the definition of one that is declared. -/
theorem eq_definitionAt (h : Segmented settings counter schema found) {i : Nat} {p : Protocol}
    (hp : found[i]? = some p) : ∃ before q after, schema = before ++ .protocol q :: after ∧
      (Schema.protocols before).length = i ∧ p = definitionAt settings counter before q := by
  have hi : i < schema.protocols.length := by
    rw [← h.length_eq]
    exact (List.getElem?_eq_some_iff.mp hp).1
  obtain ⟨before, q, after, hschema, hlength⟩ := Schema.exists_cut hi
  have hget := h.get?_eq before q after hschema
  rw [hlength, hp] at hget
  exact ⟨before, q, after, hschema, hlength, Option.some.inj hget⟩

/-- There is only one way to cut a schema. -/
theorem unique {found' : List Protocol} (h : Segmented settings counter schema found)
    (h' : Segmented settings counter schema found') : found = found' := by
  apply List.ext_getElem?
  intro i
  cases hp : found[i]? with
  | none =>
    rw [List.getElem?_eq_none_iff, h.length_eq, ← h'.length_eq] at hp
    exact (List.getElem?_eq_none_iff.mpr hp).symm
  | some p =>
    obtain ⟨before, q, after, hschema, hlength, rfl⟩ := h.eq_definitionAt hp
    rw [← hlength]
    exact (h'.get?_eq before q after hschema).symm

end Segmented

section Walk

variable (settings : Settings) (counter : Int)

/-- Naming the protocol behind `before` gives it the name of its definition. -/
theorem protocolName_eq_definitionAt (before : Schema) (p : ProtocolDeclaration) :
    protocolName settings (counter + before.nameless) p.name =
      (definitionAt settings counter before p).name := by
  cases hvacant : p.name.isVacant with
  | true =>
    simp [protocolName, nameProtocol_of_nameless hvacant, definitionAt, hvacant, syntheticName]
  | false => simp [protocolName, nameProtocol_of_named hvacant, definitionAt, hvacant]

/-- Naming the protocol behind `before` moves the counter on exactly if it is nameless. -/
theorem nameProtocol_counter (before : Schema) (p : ProtocolDeclaration) :
    (nameProtocol settings (counter + before.nameless) p.name).2.1 =
      counter + Schema.nameless (before ++ [.protocol p]) := by
  rw [Schema.nameless_concat_protocol]
  cases hvacant : p.name.isVacant with
  | true =>
    rw [nameProtocol_of_nameless hvacant, if_pos rfl, Int.natCast_add, ← Int.add_assoc]
    rfl
  | false =>
    rw [nameProtocol_of_named hvacant, if_neg Bool.false_ne_true]
    rfl

/-- One step of a walk, from a cut to the protocol behind it. The definition of the protocol is
visited. The walk goes on behind it, or fails with the visit. -/
theorem walk_definitionAt {σ : Type} (visit : σ → Protocol → Visit σ) (state : σ) (before : Schema)
    {p : ProtocolDeclaration} (hdirected : ∀ m ∈ p.methods, m.Directed) (rest : Schema) :
    ((visit state (definitionAt settings counter before p)).failure = none →
      (Cursor.mk settings (.protocol p :: rest) before.trailing).walk visit
          (counter + before.nameless) state =
        ((Cursor.mk settings rest []).walk visit
          (counter + Schema.nameless (before ++ [.protocol p]))
          (visit state (definitionAt settings counter before p)).state).after
          (namingLog settings (counter + before.nameless) p.name ++
            (visit state (definitionAt settings counter before p)).log)) ∧
    ∀ failure, (visit state (definitionAt settings counter before p)).failure = some failure →
      ((Cursor.mk settings (.protocol p :: rest) before.trailing).walk visit
          (counter + before.nameless) state).failure = some failure ∧
        ((Cursor.mk settings (.protocol p :: rest) before.trailing).walk visit
          (counter + before.nameless) state).state =
          (visit state (definitionAt settings counter before p)).state := by
  have hmethods := toMethods_of_directed
    (protocolName settings (counter + before.nameless) p.name) hdirected
  have hdefinition : Protocol.mk (protocolName settings (counter + before.nameless) p.name)
      settings.unknownProtocolId (p.methods.map MethodDeclaration.divided) before.trailing =
      definitionAt settings counter before p := by
    rw [protocolName_eq_definitionAt]
    rfl
  constructor
  · intro hvisit
    rw [Cursor.walk_protocol_of_ok hmethods (hdefinition ▸ hvisit), hdefinition,
      nameProtocol_counter]
  · intro failure hvisit
    rw [Cursor.walk_protocol_of_visit_failed hmethods (hdefinition ▸ hvisit), hdefinition]
    exact ⟨rfl, rfl⟩

/-- The loop invariant of walks, at an arbitrary cut of the schema. A walk that has come to the cut
has visited the protocols in front of it, holds the records behind the last of them, and has counted
the nameless ones. If one of the visits fails, the walk ends there. -/
theorem walk_append {before : Schema} (hdirected : before.Directed) :
    ∃ found, Segmented settings counter before found ∧
      ∀ {σ : Type} (visit : σ → Protocol → Visit σ) (state : σ), ∃ log, ∀ rest : Schema,
        ((visitAll visit state found).failure = none →
          (Cursor.mk settings (before ++ rest) []).walk visit counter state =
            ((Cursor.mk settings rest before.trailing).walk visit (counter + before.nameless)
              (visitAll visit state found).state).after log) ∧
        ∀ failure, (visitAll visit state found).failure = some failure →
          ((Cursor.mk settings (before ++ rest) []).walk visit counter state).failure =
              some failure ∧
            ((Cursor.mk settings (before ++ rest) []).walk visit counter state).state =
              (visitAll visit state found).state := by
  induction before using List.reverseRecOn with
  | nil =>
    refine ⟨[], .nil, fun visit state => ⟨[], fun rest => ⟨fun _ => ?_, fun failure h => ?_⟩⟩⟩
    · simp [visitAll]
    · cases h
  | append_singleton before d ih =>
    cases d with
    | record r =>
      obtain ⟨found, hfound, hwalk⟩ := ih (by simpa [Schema.Directed] using hdirected)
      refine ⟨found, hfound.concat_record r, fun visit state => ?_⟩
      obtain ⟨log, hlog⟩ := hwalk visit state
      refine ⟨log, fun rest => ?_⟩
      rw [List.append_assoc, List.singleton_append, Schema.trailing_concat_record,
        Schema.nameless_concat_record, ← Cursor.walk_record]
      exact hlog (.record r :: rest)
    | protocol p =>
      have hsplit : Schema.Directed before ∧ ∀ m ∈ p.methods, m.Directed := by
        simpa [Schema.Directed, or_imp, forall_and] using hdirected
      obtain ⟨found, hfound, hwalk⟩ := ih hsplit.1
      refine ⟨_, hfound.concat_protocol p, fun visit state => ?_⟩
      obtain ⟨log, hlog⟩ := hwalk visit state
      refine ⟨log ++ (namingLog settings (counter + Schema.nameless before) p.name ++
        (visit (visitAll visit state found).state (definitionAt settings counter before p)).log),
        fun rest => ?_⟩
      obtain ⟨hsucceeds, hfails⟩ := hlog (.protocol p :: rest)
      rw [List.append_assoc, List.singleton_append]
      cases hbefore : (visitAll visit state found).failure with
      | some failure =>
        rw [visitAll_append_of_failed _ hbefore]
        refine ⟨fun h => ?_, fun failure' h => hfails failure' h⟩
        rw [hbefore] at h
        cases h
      | none =>
        obtain ⟨hstate, hfailure⟩ :=
          visitAll_concat (definitionAt settings counter before p) hbefore
        obtain ⟨hnext, hend⟩ := walk_definitionAt settings counter visit
          (visitAll visit state found).state before hsplit.2 rest
        rw [hsucceeds hbefore, hstate, hfailure]
        refine ⟨fun hvisit => ?_, hend⟩
        rw [hnext hvisit, Walk.after_after, Schema.trailing_concat_protocol]

/-- The loop invariant of extraction, at an arbitrary cut of the schema. A walk that has come to
the cut has found the protocols in front of it, holds the records behind the last of them, and has
counted the nameless ones. -/
theorem walk_collect_append {before : Schema} (hdirected : before.Directed) :
    ∃ found log, Segmented settings counter before found ∧ ∀ rest : Schema,
      (Cursor.mk settings (before ++ rest) []).walk collect counter [] =
        ((Cursor.mk settings rest before.trailing).walk collect (counter + before.nameless)
          found).after log := by
  obtain ⟨found, hfound, hwalk⟩ := walk_append settings counter hdirected
  obtain ⟨log, hlog⟩ := hwalk collect []
  refine ⟨found, log, hfound, fun rest => ?_⟩
  simpa [visitAll_collect] using (hlog rest).1

end Walk

/-- **Extraction is an exact segmentation.** If each parameter has a direction and the records
behind the last protocol have texts for names, extraction succeeds. It gives one protocol for each
declared one, in order, each with its own name or the next free number, its methods in order, and
the records between it and the protocol before; no record is lost or given out twice. -/
theorem extract_segmented (active settings : Settings) (counter : Int) (schema : Schema)
    (hdirected : schema.Directed) (hnames : ∀ r ∈ schema.trailing, ∃ s, r.name = .text s) :
    (extract active (some settings) counter schema).failure = none ∧
      Segmented settings counter schema (extract active (some settings) counter schema).state ∧
      (extract active (some settings) counter schema).counter = counter + schema.nameless := by
  obtain ⟨found, log, hfound, hwalk⟩ := walk_collect_append settings counter hdirected
  obtain ⟨hpull, hcounter⟩ :=
    Cursor.next_nil_of_texts settings (counter + schema.nameless) hnames
  have hextract := hwalk []
  rw [List.append_nil, Cursor.walk_of_finished hpull, hcounter] at hextract
  rw [extract, Cursor.start_some, hextract]
  exact ⟨rfl, hfound, rfl⟩

/-- Two protocols, the first of them nameless and with parameters of each kind, and records in front
of, between and behind them. -/
def mixedSchema : Schema :=
  [.record ⟨.text "Key", .text "", []⟩,
    .protocol ⟨.text "", [⟨.text "Login",
      [⟨.text "ticket", .text "string", .integer 2, false⟩,
        ⟨.text "user", .text "uint32", .integer 1, false⟩,
        ⟨.text "%retval%", .text "qresult", .null, true⟩]⟩]⟩,
    .record ⟨.text "Gathering", .text "Data", []⟩,
    .protocol ⟨.text "Matchmake", []⟩,
    .record ⟨.text "Leftover", .text "", []⟩]

/-- Both protocols are extracted, the first under a number. -/
theorem extract_mixedSchema :
    mixedSchema.Directed ∧ (∀ r ∈ mixedSchema.trailing, ∃ s, r.name = .text s) ∧
      (extract {} (some {}) 3 mixedSchema).failure = none ∧
      Segmented {} 3 mixedSchema (extract {} (some {}) 3 mixedSchema).state ∧
      (extract {} (some {}) 3 mixedSchema).counter = 3 + mixedSchema.nameless := by
  have hdirected : mixedSchema.Directed := by
    intro p hp
    simp only [mixedSchema, Schema.protocols, Declaration.protocol?, List.filterMap_cons,
      List.filterMap_nil, List.mem_cons, List.not_mem_nil, or_false] at hp
    rcases hp with rfl | rfl <;> simp [MethodDeclaration.Directed, Parameter.Directed]
  have hnames : ∀ r ∈ mixedSchema.trailing, ∃ s, r.name = .text s := by
    intro r hr
    obtain rfl : r = ⟨.text "Leftover", .text "", []⟩ := List.mem_singleton.mp hr
    exact ⟨_, rfl⟩
  exact ⟨hdirected, hnames, extract_segmented {} {} 3 mixedSchema hdirected hnames⟩

end ProtocolPages
