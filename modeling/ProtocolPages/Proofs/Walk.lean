import ProtocolPages.Protocol.Extraction

/-!
# Walks, one declaration at a time

A walk is defined by its advances, and each advance runs up to the next protocol. The equations of
this file follow a walk one declaration at a time instead, so that a fact about whole walks can be
proved by induction on the schema.
-/

namespace ProtocolPages

/-- A walk with something reported before it. -/
def Walk.after {σ : Type} (log : Log) (w : Walk σ) : Walk σ :=
  { w with log := log ++ w.log }

/-- Reporting nothing before a walk changes nothing. -/
@[simp] theorem Walk.after_nil {σ : Type} (w : Walk σ) : w.after [] = w := rfl

/-- What is reported before a walk adds up. -/
theorem Walk.after_after {σ : Type} (log₁ log₂ : Log) (w : Walk σ) :
    (w.after log₂).after log₁ = w.after (log₁ ++ log₂) := by
  simp [Walk.after]

/-- Why nothing could be taken out, if an attempt failed. -/
def Pull.failure? : Pull → Option Failure
  | .failed failure => some failure
  | _ => none

/-- The name of a protocol, declared or made up. -/
def protocolName (settings : Settings) (counter : Int) (declared : Value) : Value :=
  (nameProtocol settings counter declared).1

/-- What a walk reports about a protocol before it looks at the methods. -/
def namingLog (settings : Settings) (counter : Int) (declared : Value) : Log :=
  (nameProtocol settings counter declared).2.2 ++
    [⟨.info, "Found NEX protocol: " ++ (protocolName settings counter declared).plain⟩]

/-- A declared name is kept. -/
theorem nameProtocol_of_named {settings : Settings} {counter : Int} {declared : Value}
    (h : declared.isVacant = false) :
    nameProtocol settings counter declared = (declared, counter, []) := by
  simp [nameProtocol, h]

/-- A nameless protocol is numbered by the counter, which then moves on by one. -/
theorem nameProtocol_of_nameless {settings : Settings} {counter : Int} {declared : Value}
    (h : declared.isVacant = true) :
    nameProtocol settings counter declared =
      (.text (syntheticName settings.unknownProtocolPrefix counter), counter + 1,
        [⟨.warning, "Could not determine real protocol name. Defaulting to " ++
          syntheticName settings.unknownProtocolPrefix counter⟩]) := by
  simp [nameProtocol, h]

/-- Names that are all texts can be listed. -/
theorem exists_names_of_texts {records : List Record} (h : ∀ r ∈ records, ∃ s, r.name = .text s) :
    ∃ names, records.mapM (·.name.text?) = some names := by
  induction records with
  | nil => exact ⟨[], rfl⟩
  | cons r rest ih =>
    obtain ⟨s, hs⟩ := h r List.mem_cons_self
    obtain ⟨names, hnames⟩ := ih fun q hq => h q (List.mem_cons_of_mem r hq)
    have hfirst : r.name.text? = some s := by rw [hs]; rfl
    exact ⟨s :: names, by simp [hfirst, hnames]⟩

/-- Visit protocols one after another, up to the first visit that fails. -/
def visitAll {σ : Type} (visit : σ → Protocol → Visit σ) (state : σ) : List Protocol → Visit σ
  | [] => ⟨state, [], none⟩
  | p :: rest =>
    match (visit state p).failure with
    | some failure => ⟨(visit state p).state, (visit state p).log, some failure⟩
    | none =>
      let later := visitAll visit (visit state p).state rest
      { later with log := (visit state p).log ++ later.log }

section VisitAll

variable {σ : Type} {visit : σ → Protocol → Visit σ} {state : σ} {found : List Protocol}

/-- Once a visit has failed, nothing more is visited. -/
theorem visitAll_append_of_failed {failure : Failure} (later : List Protocol)
    (h : (visitAll visit state found).failure = some failure) :
    visitAll visit state (found ++ later) = visitAll visit state found := by
  induction found generalizing state with
  | nil => exact nomatch h
  | cons p rest ih =>
    cases hvisit : (visit state p).failure with
    | some failure' => simp only [List.cons_append, visitAll, hvisit]
    | none =>
      simp only [visitAll, hvisit] at h
      simp only [List.cons_append, visitAll, hvisit, ih h]

/-- One more visit follows those that succeed. -/
theorem visitAll_concat (p : Protocol) (h : (visitAll visit state found).failure = none) :
    (visitAll visit state (found ++ [p])).state =
        (visit (visitAll visit state found).state p).state ∧
      (visitAll visit state (found ++ [p])).failure =
        (visit (visitAll visit state found).state p).failure := by
  induction found generalizing state with
  | nil =>
    simp only [List.nil_append, visitAll]
    split
    · next failure hvisit => exact ⟨rfl, hvisit.symm⟩
    · next hvisit => exact ⟨rfl, hvisit.symm⟩
  | cons q rest ih =>
    cases hvisit : (visit state q).failure with
    | some failure => simp [visitAll, hvisit] at h
    | none =>
      simp only [visitAll, hvisit] at h
      simp only [List.cons_append, visitAll, hvisit]
      exact ih h

/-- Keeping every protocol keeps them all. -/
theorem visitAll_collect (before found : List Protocol) :
    visitAll collect before found = ⟨before ++ found, [], none⟩ := by
  induction found generalizing before with
  | nil => simp [visitAll]
  | cons p rest ih => simp [visitAll, collect, ih]

end VisitAll

namespace Cursor

variable {σ : Type} {visit : σ → Protocol → Visit σ} {c rest : Cursor} {counter : Int} {state : σ}

/-- A walk ends where no protocol is left. -/
theorem walk_of_finished (h : (c.next counter).pull = .finished) :
    c.walk visit counter state =
      ⟨state, (c.next counter).counter, (c.next counter).log, none⟩ := by
  rw [walk]
  dsimp only
  split
  · rfl
  · next hpull => exact Pull.noConfusion (h.symm.trans hpull)
  · next hpull => exact Pull.noConfusion (h.symm.trans hpull)

/-- A walk ends where the next protocol cannot be taken out. -/
theorem walk_of_failed {failure : Failure} (h : (c.next counter).pull = .failed failure) :
    c.walk visit counter state =
      ⟨state, (c.next counter).counter, (c.next counter).log, some failure⟩ := by
  rw [walk]
  dsimp only
  split
  · next hpull => exact Pull.noConfusion (h.symm.trans hpull)
  · next hpull => cases h.symm.trans hpull; rfl
  · next hpull => exact Pull.noConfusion (h.symm.trans hpull)

/-- A walk ends at a protocol whose visit fails. -/
theorem walk_of_visit_failed {protocol : Protocol} {failure : Failure}
    (h : (c.next counter).pull = .found protocol rest)
    (hvisit : (visit state protocol).failure = some failure) :
    c.walk visit counter state =
      ⟨(visit state protocol).state, (c.next counter).counter,
        (c.next counter).log ++ (visit state protocol).log, some failure⟩ := by
  rw [walk]
  dsimp only
  split
  · next hpull => exact Pull.noConfusion (h.symm.trans hpull)
  · next hpull => exact Pull.noConfusion (h.symm.trans hpull)
  · next hpull => cases h.symm.trans hpull; rw [hvisit]

/-- A walk goes on behind a protocol whose visit succeeds. -/
theorem walk_of_visited {protocol : Protocol}
    (h : (c.next counter).pull = .found protocol rest)
    (hvisit : (visit state protocol).failure = none) :
    c.walk visit counter state =
      (rest.walk visit (c.next counter).counter (visit state protocol).state).after
        ((c.next counter).log ++ (visit state protocol).log) := by
  rw [walk]
  dsimp only
  split
  · next hpull => exact Pull.noConfusion (h.symm.trans hpull)
  · next hpull => exact Pull.noConfusion (h.symm.trans hpull)
  · next hpull => cases h.symm.trans hpull; rw [hvisit]; rfl

/-- A walk depends on the place only through the advance it makes from there. -/
theorem walk_congr {d : Cursor} (h : c.next counter = d.next counter) :
    c.walk visit counter state = d.walk visit counter state := by
  cases hpull : (d.next counter).pull with
  | finished =>
    rw [walk_of_finished hpull, walk_of_finished (by rw [h, hpull]), h]
  | failed failure =>
    rw [walk_of_failed hpull, walk_of_failed (by rw [h, hpull]), h]
  | found protocol rest =>
    have hpull' : (c.next counter).pull = .found protocol rest := by rw [h, hpull]
    cases hvisit : (visit state protocol).failure with
    | none => rw [walk_of_visited hpull hvisit, walk_of_visited hpull' hvisit, h]
    | some failure =>
      rw [walk_of_visit_failed hpull hvisit, walk_of_visit_failed hpull' hvisit, h]

section Schema

variable {settings : Settings} {pending : List Record} {schema : Schema}

/-- A record joins those that wait. -/
theorem next_record {r : Record} :
    (Cursor.mk settings (.record r :: schema) pending).next counter =
      (Cursor.mk settings schema (pending ++ [r])).next counter := rfl

/-- A protocol whose methods can be divided is found, with the records that wait. -/
theorem next_protocol_of_ok {p : ProtocolDeclaration} {methods : List Method}
    (h : toMethods (protocolName settings counter p.name) p.methods = .ok methods) :
    (Cursor.mk settings (.protocol p :: schema) pending).next counter =
      ⟨.found ⟨protocolName settings counter p.name, settings.unknownProtocolId, methods, pending⟩
          ⟨settings, schema, []⟩,
        (nameProtocol settings counter p.name).2.1, namingLog settings counter p.name⟩ := by
  unfold protocolName at h
  simp only [next, advance, extractProtocol, h]
  rfl

/-- A protocol with a method that cannot be divided ends the walk; it has been named by then. -/
theorem next_protocol_of_error {p : ProtocolDeclaration} {e : DirectionError}
    (h : toMethods (protocolName settings counter p.name) p.methods = .error e) :
    (Cursor.mk settings (.protocol p :: schema) pending).next counter =
      ⟨.failed (.direction e), (nameProtocol settings counter p.name).2.1,
        namingLog settings counter p.name⟩ := by
  unfold protocolName at h
  simp only [next, advance, extractProtocol, h]
  rfl

/-- A walk passes a record on to the next protocol. -/
theorem walk_record {r : Record} :
    (Cursor.mk settings (.record r :: schema) pending).walk visit counter state =
      (Cursor.mk settings schema (pending ++ [r])).walk visit counter state :=
  walk_congr next_record

/-- A walk visits a protocol whose methods can be divided and, if the visit succeeds, goes on with
nothing waiting. -/
theorem walk_protocol_of_ok {p : ProtocolDeclaration} {methods : List Method}
    (h : toMethods (protocolName settings counter p.name) p.methods = .ok methods)
    (hvisit : (visit state ⟨protocolName settings counter p.name, settings.unknownProtocolId,
      methods, pending⟩).failure = none) :
    (Cursor.mk settings (.protocol p :: schema) pending).walk visit counter state =
      ((Cursor.mk settings schema []).walk visit (nameProtocol settings counter p.name).2.1
        (visit state ⟨protocolName settings counter p.name, settings.unknownProtocolId, methods,
          pending⟩).state).after
        (namingLog settings counter p.name ++ (visit state ⟨protocolName settings counter p.name,
          settings.unknownProtocolId, methods, pending⟩).log) := by
  have hnext : (Cursor.mk settings (.protocol p :: schema) pending).next counter = _ :=
    next_protocol_of_ok h
  rw [walk_of_visited (congrArg Advance.pull hnext) hvisit, hnext]

/-- A walk ends at a protocol with a method that cannot be divided. -/
theorem walk_protocol_of_error {p : ProtocolDeclaration} {e : DirectionError}
    (h : toMethods (protocolName settings counter p.name) p.methods = .error e) :
    (Cursor.mk settings (.protocol p :: schema) pending).walk visit counter state =
      ⟨state, (nameProtocol settings counter p.name).2.1, namingLog settings counter p.name,
        some (.direction e)⟩ := by
  have hnext : (Cursor.mk settings (.protocol p :: schema) pending).next counter = _ :=
    next_protocol_of_error h
  rw [walk_of_failed (congrArg Advance.pull hnext), hnext]

/-- A walk ends at a protocol whose methods can be divided and whose visit fails. -/
theorem walk_protocol_of_visit_failed {p : ProtocolDeclaration} {methods : List Method}
    {failure : Failure}
    (h : toMethods (protocolName settings counter p.name) p.methods = .ok methods)
    (hvisit : (visit state ⟨protocolName settings counter p.name, settings.unknownProtocolId,
      methods, pending⟩).failure = some failure) :
    (Cursor.mk settings (.protocol p :: schema) pending).walk visit counter state =
      ⟨(visit state ⟨protocolName settings counter p.name, settings.unknownProtocolId, methods,
          pending⟩).state, (nameProtocol settings counter p.name).2.1,
        namingLog settings counter p.name ++ (visit state ⟨protocolName settings counter p.name,
          settings.unknownProtocolId, methods, pending⟩).log, some failure⟩ := by
  have hnext : (Cursor.mk settings (.protocol p :: schema) pending).next counter = _ :=
    next_protocol_of_ok h
  rw [walk_of_visit_failed (congrArg Advance.pull hnext) hvisit, hnext]

/-- A walk over no declarations visits nothing; it drops the records that wait. -/
theorem walk_nil :
    (Cursor.mk settings [] pending).walk visit counter state =
      ⟨state, counter, (dropPending counter pending).log,
        (dropPending counter pending).pull.failure?⟩ := by
  have hnext : (Cursor.mk settings [] pending).next counter = dropPending counter pending := rfl
  have hcounter : (dropPending counter pending).counter = counter := by
    unfold dropPending
    split
    · rfl
    · split <;> rfl
  cases hpull : (dropPending counter pending).pull with
  | finished =>
    rw [walk_of_finished (by rw [hnext, hpull]), hnext, hcounter]
    rfl
  | failed failure =>
    rw [walk_of_failed (by rw [hnext, hpull]), hnext, hcounter]
    rfl
  | found protocol rest =>
    have hlength := remaining_length_lt_of_advance (hnext ▸ hpull)
    exact absurd hlength (Nat.not_lt_zero _)

/-- At the end of a schema the records that wait are dropped, if all their names are texts. -/
theorem next_nil_of_texts (settings : Settings) (counter : Int)
    (h : ∀ r ∈ pending, ∃ s, r.name = .text s) :
    ((Cursor.mk settings [] pending).next counter).pull = .finished ∧
      ((Cursor.mk settings [] pending).next counter).counter = counter := by
  simp only [next, advance, dropPending]
  split
  · exact ⟨rfl, rfl⟩
  · obtain ⟨names, hnames⟩ := exists_names_of_texts h
    rw [hnames]
    exact ⟨rfl, rfl⟩

end Schema

end Cursor

end ProtocolPages
