import ProtocolPages.Proofs.Lockstep

/-!
# How walks end

A walk visits the protocols of a schema until something goes wrong. What holds of the log and the
state in front of every visit therefore holds when the walk ends, or held in front of the visit that
failed. This is stated once for all visits, with every reason for which a walk can end. Visits that
publish a document are then taken apart: there are four things that can become of a protocol.
-/

namespace ProtocolPages

namespace Cursor

/-- The record waits at this place or is still to come. -/
def Holds (c : Cursor) (r : Record) : Prop :=
  r ∈ c.pending ∨ r ∈ Schema.records c.remaining

/-- The protocol may be taken out from this place on: it is one of the protocols that are declared
there, named and divided, with some of the records. -/
structure Yields (c : Cursor) (p : Protocol) : Prop where
  declared : ∃ q ∈ Schema.protocols c.remaining,
    (∃ counter, p.name = protocolName c.settings counter q.name) ∧
      p.methods = q.methods.map MethodDeclaration.divided
  records : ∀ r ∈ p.records, c.Holds r

section Yields

variable {settings : Settings} {schema : Schema} {pending : List Record} {p : Protocol}

/-- A record that joins those that wait was still to come before. -/
theorem Holds.of_record {q r : Record}
    (h : (Cursor.mk settings schema (pending ++ [q])).Holds r) :
    (Cursor.mk settings (.record q :: schema) pending).Holds r := by
  rcases h with hwaits | hcomes
  · rcases List.mem_append.mp hwaits with hbefore | hlast
    · exact Or.inl hbefore
    · exact Or.inr (List.mem_cons.mpr (Or.inl (List.mem_singleton.mp hlast)))
  · exact Or.inr (List.mem_cons_of_mem q hcomes)

/-- No record waits behind a protocol. -/
theorem Holds.of_protocol {q : ProtocolDeclaration} {r : Record}
    (h : (Cursor.mk settings schema []).Holds r) :
    (Cursor.mk settings (.protocol q :: schema) pending).Holds r := by
  rcases h with hwaits | hcomes
  · cases hwaits
  · exact Or.inr hcomes

/-- What is yielded behind a record. -/
theorem Yields.of_record {q : Record} (h : (Cursor.mk settings schema (pending ++ [q])).Yields p) :
    (Cursor.mk settings (.record q :: schema) pending).Yields p :=
  ⟨h.declared, fun r hr => (h.records r hr).of_record⟩

/-- What is yielded behind a protocol. -/
theorem Yields.of_protocol {q : ProtocolDeclaration}
    (h : (Cursor.mk settings schema []).Yields p) :
    (Cursor.mk settings (.protocol q :: schema) pending).Yields p := by
  obtain ⟨declared, hmem, hfrom⟩ := h.declared
  exact ⟨⟨declared, List.mem_cons_of_mem q hmem, hfrom⟩, fun r hr => (h.records r hr).of_protocol⟩

/-- The first protocol is taken out with all the records that wait. -/
theorem yields_first (settings : Settings) (q : ProtocolDeclaration) (schema : Schema)
    (pending : List Record) (counter : Int) :
    (Cursor.mk settings (.protocol q :: schema) pending).Yields
      ⟨protocolName settings counter q.name, settings.unknownProtocolId,
        q.methods.map MethodDeclaration.divided, pending⟩ where
  declared := ⟨q, List.mem_cons_self, ⟨counter, rfl⟩, rfl⟩
  records _ hr := Or.inl hr

end Yields

/-- How a walk ends from a place on, if an invariant of the log and the state holds in front of
every visit. -/
inductive Ends {σ : Type} (c : Cursor) (visit : σ → Protocol → Visit σ) (Inv : Log → σ → Prop)
    (log : Log) (w : Walk σ) : Prop where
  /-- Every visit succeeded, and there was nothing more to visit. -/
  | finished (hinv : Inv (log ++ w.log) w.state) (hfailure : w.failure = none)
  /-- Every visit succeeded, and the next protocol has a parameter without direction. -/
  | undirected (hinv : Inv (log ++ w.log) w.state) {e : DirectionError}
      (hfailure : w.failure = some (.direction e))
  /-- Every visit succeeded, and a record that nothing waits for has a name other than a text. -/
  | unlisted (hinv : Inv (log ++ w.log) w.state) {r : Record}
      (hrecord : c.Holds r) (hname : ¬r.name.IsText)
      (hfailure : w.failure = some (.misuse .notJoinable))
  /-- The visit of a protocol failed. -/
  | stopped {front : Log} {state : σ} {p : Protocol} {failure : Failure} (hyields : c.Yields p)
      (hinv : Inv (log ++ front) state) (hvisit : (visit state p).failure = some failure)
      (hlog : w.log = front ++ (visit state p).log) (hstate : w.state = (visit state p).state)
      (hfailure : w.failure = some failure)

/-- Only names that are texts can be listed. -/
theorem texts_of_names {records : List Record} {names : List String}
    (h : records.mapM (·.name.text?) = some names) : ∀ r ∈ records, r.name.IsText := by
  induction records generalizing names with
  | nil => exact List.forall_mem_nil _
  | cons r rest ih =>
    rw [List.mapM_cons] at h
    obtain ⟨name, hname, hmore⟩ := Option.bind_eq_some_iff.mp h
    obtain ⟨others, hothers, -⟩ := Option.bind_eq_some_iff.mp hmore
    refine List.forall_mem_cons.mpr ⟨?_, ih hothers⟩
    cases hvalue : r.name with
    | text s => exact ⟨s, rfl⟩
    | _ => rw [hvalue] at hname; cases hname

section Ends

variable {σ : Type} {visit : σ → Protocol → Visit σ} {Inv : Log → σ → Prop} {log front : Log}
  {w : Walk σ}

/-- A walk ends like the part of it that is left. -/
theorem Ends.after {c rest : Cursor} (h : rest.Ends visit Inv (log ++ front) w)
    (hyields : ∀ p, rest.Yields p → c.Yields p)
    (hrecords : ∀ r, rest.Holds r → c.Holds r) :
    c.Ends visit Inv log (w.after front) := by
  have happend (more : Log) : log ++ front ++ more = log ++ (front ++ more) := by simp
  cases h with
  | finished hinv hfailure => exact .finished (happend w.log ▸ hinv) hfailure
  | undirected hinv hfailure => exact .undirected (happend w.log ▸ hinv) hfailure
  | unlisted hinv hrecord hname hfailure =>
    exact .unlisted (happend w.log ▸ hinv) (hrecords _ hrecord) hname hfailure
  | @stopped later state p failure hp hinv hvisit hlog hstate hfailure =>
    refine .stopped (hyields p hp) (happend later ▸ hinv) hvisit ?_ hstate hfailure
    rw [Walk.after, hlog, List.append_assoc]

/-- The records that wait at the end of a schema are dropped, unless one has no text for its
name. -/
theorem dropPending_cases (counter : Int) (records : List Record) :
    (∀ r ∈ records, r.name.IsText) ∧ (dropPending counter records).pull.failure? = none ∨
      (∃ r ∈ records, ¬r.name.IsText) ∧
        (dropPending counter records).pull.failure? = some (.misuse .notJoinable) := by
  by_cases htexts : ∀ r ∈ records, r.name.IsText
  · refine Or.inl ⟨htexts, ?_⟩
    unfold dropPending
    split
    · rfl
    · obtain ⟨names, hnames⟩ := exists_names_of_texts htexts
      rw [hnames]
      rfl
  · have hnone : records.mapM (·.name.text?) = none := by
      cases hnames : records.mapM (·.name.text?) with
      | none => rfl
      | some names => exact absurd (texts_of_names hnames) htexts
    simp only [not_forall] at htexts
    obtain ⟨r, hr, hname⟩ := htexts
    refine Or.inr ⟨⟨r, hr, hname⟩, ?_⟩
    have hempty : records.isEmpty = false := by
      cases records with
      | nil => cases hr
      | cons first rest => rfl
    simp only [dropPending, hempty, hnone]
    rfl

/-- How a walk ends that has nothing left to read. -/
theorem ends_nil {settings : Settings} {pending : List Record} {counter : Int} {state : σ}
    (hinv : Inv (log ++ (dropPending counter pending).log) state) :
    (Cursor.mk settings [] pending).Ends visit Inv log
      ((Cursor.mk settings [] pending).walk visit counter state) := by
  rw [walk_nil]
  rcases dropPending_cases counter pending with ⟨-, hnone⟩ | ⟨⟨r, hr, hname⟩, hfailure⟩
  · exact .finished hinv hnone
  · exact .unlisted hinv (Or.inl hr) hname hfailure

/-- **How walks end.** An invariant that naming, dropping and every successful visit keep holds at
the end of a walk or in front of the visit that ends it. -/
theorem walk_ends (settings : Settings) (schema : Schema) (pending : List Record)
    (hnaming : ∀ log state counter declared, Inv log state →
      Inv (log ++ namingLog settings counter declared) state)
    (hdropping : ∀ log state counter records, Inv log state →
      Inv (log ++ (dropPending counter records).log) state)
    (hvisit : ∀ log state p, (Cursor.mk settings schema pending).Yields p → Inv log state →
      (visit state p).failure = none → Inv (log ++ (visit state p).log) (visit state p).state)
    (counter : Int) {state : σ} (h : Inv log state) :
    (Cursor.mk settings schema pending).Ends visit Inv log
      ((Cursor.mk settings schema pending).walk visit counter state) := by
  induction schema generalizing pending counter state log with
  | nil => exact ends_nil (hdropping _ _ _ _ h)
  | cons d rest ih =>
    cases d with
    | record r =>
      rw [walk_record]
      have hends := ih (pending ++ [r])
        (fun log state p hp => hvisit log state p hp.of_record) counter h
      rw [← List.append_nil log] at hends
      exact hends.after (fun p hp => hp.of_record) fun q hq => hq.of_record
    | protocol q =>
      rcases toMethods_cases (protocolName settings counter q.name) q.methods with
        ⟨-, hmethods⟩ | ⟨-, e, herror⟩
      · have hfirst := yields_first settings q rest pending counter
        have hnamed := hnaming log state counter q.name h
        cases hfailure : (visit state ⟨protocolName settings counter q.name,
          settings.unknownProtocolId, q.methods.map MethodDeclaration.divided,
          pending⟩).failure with
        | some failure =>
          rw [walk_protocol_of_visit_failed hmethods hfailure]
          exact .stopped hfirst hnamed hfailure rfl rfl rfl
        | none =>
          rw [walk_protocol_of_ok hmethods hfailure]
          refine Ends.after (ih [] (fun log state p hp => hvisit log state p hp.of_protocol) _ ?_)
            (fun p hp => hp.of_protocol) fun r hr => hr.of_protocol
          rw [← List.append_assoc]
          exact hvisit _ _ _ hfirst hnamed hfailure
      · rw [walk_protocol_of_error herror]
        exact .undirected (hnaming log state counter q.name h) rfl

/-- What every visit keeps, also one that fails, is kept by the walk. -/
theorem walk_keeps (Kept : σ → Prop) (settings : Settings) (schema : Schema)
    (hvisit : ∀ state p, (Cursor.mk settings schema []).Yields p → Kept state →
      Kept (visit state p).state)
    (counter : Int) {state : σ} (h : Kept state) :
    Kept ((Cursor.mk settings schema []).walk visit counter state).state := by
  have hends : (Cursor.mk settings schema []).Ends visit (fun _ state => Kept state) []
      ((Cursor.mk settings schema []).walk visit counter state) :=
    walk_ends settings schema [] (fun _ _ _ _ hkept => hkept) (fun _ _ _ _ hkept => hkept)
      (fun _ state p hyields hkept _ => hvisit state p hyields hkept) counter h
  cases hends with
  | finished hkept _ | undirected hkept _ | unlisted hkept _ _ _ => exact hkept
  | stopped hyields hkept _ _ hstate _ =>
    rw [hstate]
    exact hvisit _ _ hyields hkept

end Ends

end Cursor

/-- What becomes of a protocol that is to be published. -/
inductive Published {σ : Type} (active settings : Settings) (writer : Writer σ) (folder : Path)
    (state : Publication σ) (p : Protocol) (visit : Visit (Publication σ)) : Prop where
  /-- Its name cannot be a key. -/
  | unkeyed (hkey : p.name.isKey = false) (heq : visit = ⟨state, [], some (.misuse .notKey)⟩)
  /-- It cannot be rendered. -/
  | unrendered {misuse : Misuse} (hrender : p.render active (some settings) = .error misuse)
      (heq : visit = ⟨⟨state.store, state.seen ++ [p.name], state.paths⟩,
        announceRepeat p.name state.seen, some (.misuse misuse)⟩)
  /-- The writer refuses its document. -/
  | refused {text : String} {store : σ} {failure : Failure}
      (hrender : p.render active (some settings) = .ok text)
      (hwrite : writer.write state.store folder (p.name.plain ++ settings.fileExtension) text =
        (store, .error failure))
      (heq : visit = ⟨⟨store, state.seen ++ [p.name], state.paths⟩,
        announceRepeat p.name state.seen, some failure⟩)
  /-- Its document is written. -/
  | written {text : String} {store : σ} {path : Path}
      (hrender : p.render active (some settings) = .ok text)
      (hwrite : writer.write state.store folder (p.name.plain ++ settings.fileExtension) text =
        (store, .ok path))
      (heq : visit = ⟨⟨store, state.seen ++ [p.name], state.paths ++ [path]⟩,
        announceRepeat p.name state.seen ++ [writingRecord path], none⟩)

/-- A protocol whose document is accepted is published. -/
theorem publish_eq {σ : Type} {active settings : Settings} {writer : Writer σ} {folder : Path}
    {state : Publication σ} {p : Protocol} {text : String} {store : σ} {path : Path}
    (hkey : p.name.isKey = true) (hrender : p.render active (some settings) = .ok text)
    (hwrite : writer.write state.store folder (p.name.plain ++ settings.fileExtension) text =
      (store, .ok path)) :
    publish active settings writer folder state p =
      ⟨⟨store, state.seen ++ [p.name], state.paths ++ [path]⟩,
        announceRepeat p.name state.seen ++ [writingRecord path], none⟩ := by
  simp only [publish, hkey, hrender, hwrite]
  rfl

/-- Publishing a protocol comes to one of these cases. -/
theorem published_publish {σ : Type} (active settings : Settings) (writer : Writer σ)
    (folder : Path) (state : Publication σ) (p : Protocol) :
    Published active settings writer folder state p
      (publish active settings writer folder state p) := by
  cases hkey : p.name.isKey with
  | false => exact .unkeyed hkey (by simp only [publish, hkey]; rfl)
  | true =>
    cases hrender : p.render active (some settings) with
    | error misuse => exact .unrendered hrender (by simp only [publish, hkey, hrender]; rfl)
    | ok text =>
      rcases hwrite : writer.write state.store folder (p.name.plain ++ settings.fileExtension) text
        with ⟨store, failure | path⟩
      · exact .refused hrender hwrite (by simp only [publish, hkey, hrender, hwrite]; rfl)
      · exact .written hrender hwrite (publish_eq hkey hrender hwrite)

end ProtocolPages
