import ProtocolPages.Proofs.Interleaving
import ProtocolPages.Proofs.Textual

/-!
# The first parameter without a direction

A walk stops at the first parameter that has no direction. What it has shown by then are the
protocols in front, as if the schema ended there, and the protocol in question has been named, so
that the error can tell whose parameter it is. A walk that is advanced by commands shows this one
result at a time; after the error it has ended and shows nothing more.
-/

namespace ProtocolPages

/-! ## Walks advanced to their end -/

namespace Session

/-- The walk with the given name goes on from the place with the counter. -/
def StandsAt (s : Session) (id : String) (c : Cursor) (counter : Int) : Prop :=
  ∃ w, s.walks.lookup id = some w ∧ s.cursorOf w = some c ∧ s.walkCounter w = counter

/-- The walk with the given name has ended, and its counter is left at the given value. -/
def HasEnded (s : Session) (id : String) (counter : Int) : Prop :=
  ∃ w, s.walks.lookup id = some w ∧ w.stage = .ended ∧ s.walkCounter w = counter

section Advance

variable {s : Session} {id : String} {c : Cursor} {counter : Int}

/-- One advance shows the result of the next pull. It leaves the walk behind the protocol that was
found, or ended if none was. -/
theorem StandsAt.advance (h : s.StandsAt id c counter) :
    (s.perform (.advanceWalk id)).answer = (c.next counter).pull.result ∧
      (∀ rest, (c.next counter).pull.rest? = some rest →
        (s.perform (.advanceWalk id)).session.StandsAt id rest (c.next counter).counter) ∧
      ((c.next counter).pull.rest? = none →
        (s.perform (.advanceWalk id)).session.HasEnded id (c.next counter).counter) := by
  obtain ⟨w, hwalk, hplace, rfl⟩ := h
  have hstep : s.perform (.advanceWalk id) = s.advanceWalk id w := by
    simp only [perform, hwalk]
  obtain ⟨hanswer, moved, hmoved, hstage, hcounter⟩ := s.advanceWalk_eq id hplace
  rw [hstep]
  refine ⟨hanswer, fun rest hrest => ⟨moved, hmoved, ?_, hcounter⟩,
    fun hnone => ⟨moved, hmoved, ?_, hcounter⟩⟩
  · rw [cursorOf, hstage, hrest]
    rfl
  · rw [hstage, hnone]
    rfl

/-- The first of several advances comes before the others. -/
theorem resultsOf_advances_succ (s : Session) (id : String) (n : Nat) :
    s.resultsOf id (List.replicate (n + 1) (.advanceWalk id)) =
      (s.perform (.advanceWalk id)).answer ::
        (s.perform (.advanceWalk id)).session.resultsOf id
          (List.replicate n (.advanceWalk id)) := by
  have hadvances : (SessionCommand.advanceWalk id).advances id = true := beq_self_eq_true id
  rw [List.replicate_succ, resultsOf, if_pos hadvances]

/-- Several advances are one and then the others. -/
theorem run_advances_succ (s : Session) (id : String) (n : Nat) :
    s.run (List.replicate (n + 1) (.advanceWalk id)) =
      (s.perform (.advanceWalk id)).session.run (List.replicate n (.advanceWalk id)) := rfl

/-- A walk that has ended stays so, and shows nothing more. -/
theorem HasEnded.advances (h : s.HasEnded id counter) (n : Nat) :
    s.resultsOf id (List.replicate n (.advanceWalk id)) = List.replicate n (.ok .exhausted) ∧
      s.run (List.replicate n (.advanceWalk id)) = s := by
  obtain ⟨w, hwalk, hstage, -⟩ := h
  have hstep : s.perform (.advanceWalk id) = ⟨s, [], .ok .exhausted⟩ := by
    simp only [perform, hwalk, advanceWalk, cursorOf, hstage]
  induction n with
  | zero => exact ⟨rfl, rfl⟩
  | succ n ih =>
    obtain ⟨hresults, hrun⟩ := ih
    rw [resultsOf_advances_succ, run_advances_succ, hstep, hresults]
    exact ⟨rfl, hrun⟩

end Advance

/-- **Advancing a failing walk to its end.** One result comes after another, the failure last, and
from then on the walk has ended. -/
theorem StandsAt.advances {s : Session} {id : String} {c : Cursor} {counter : Int}
    {failure : Failure} (h : s.StandsAt id c counter)
    (hfailure : (c.walk collect counter []).failure = some failure) (extra : Nat) :
    let w := c.walk collect counter []
    let commands := List.replicate (w.state.length + 1 + extra) (.advanceWalk id)
    s.resultsOf id commands = w.results ++ List.replicate extra (.ok .exhausted) ∧
      (s.run commands).HasEnded id w.counter := by
  intro w commands
  obtain ⟨hanswer, hmoved, hended⟩ := h.advance
  cases hpull : (c.next counter).pull with
  | finished =>
    rw [Cursor.walk_of_finished hpull] at hfailure
    cases hfailure
  | failed failure' =>
    have hw : w = ⟨[], (c.next counter).counter, (c.next counter).log, some failure'⟩ :=
      Cursor.walk_of_failed hpull
    have hafter := hended (by rw [hpull]; rfl)
    have hcommands : commands = List.replicate (extra + 1) (.advanceWalk id) := by
      simp [commands, hw, Nat.add_comm]
    obtain ⟨hresults, hrun⟩ := hafter.advances extra
    rw [hcommands, resultsOf_advances_succ, run_advances_succ, hanswer, hpull, hresults, hrun, hw]
    exact ⟨rfl, hafter⟩
  | found p rest =>
    have hless : rest.remaining.length < c.remaining.length := remaining_length_lt_of_advance hpull
    have hw : w = { (rest.walk collect (c.next counter).counter []).after (c.next counter).log with
        state := p :: (rest.walk collect (c.next counter).counter []).state } :=
      Cursor.walk_collect_of_found hpull
    have hrest := hmoved rest (by rw [hpull]; rfl)
    have hlater : (rest.walk collect (c.next counter).counter []).failure = some failure := by
      rw [Cursor.walk_collect_of_found hpull] at hfailure
      exact hfailure
    obtain ⟨hresults, hrun⟩ := hrest.advances hlater extra
    have hcommands : commands = List.replicate
        ((rest.walk collect (c.next counter).counter []).state.length + 1 + extra + 1)
          (.advanceWalk id) := by
      simp only [commands, hw, List.length_cons]
      congr 1
      omega
    rw [hcommands, resultsOf_advances_succ, run_advances_succ, hanswer, hpull, hresults, hw]
    exact ⟨rfl, hrun⟩
termination_by c.remaining.length

end Session

/-! ## Where a walk stops -/

/-- The parameter `q` of the method `m` of the protocol `p` is the first one without a direction,
and `before` is what stands in front of the protocol. -/
structure Schema.FirstUndirected (schema before : Schema) (p : ProtocolDeclaration)
    (m : MethodDeclaration) (q : Parameter) : Prop where
  /-- The protocols in front have directions for all their parameters. -/
  protocol : ∃ after, schema = before ++ .protocol p :: after ∧ before.Directed
  /-- So have the methods in front, in this protocol. -/
  method : ∃ earlier later, p.methods = earlier ++ m :: later ∧ ∀ n ∈ earlier, n.Directed
  /-- So have the parameters in front, in this method. -/
  parameter : ∃ front back, m.parameters = front ++ q :: back ∧ ∀ o ∈ front, o.Directed
  /-- This one is no return value, and its tag is neither of the two directions. -/
  undirected : q.isReturn = false ∧ q.tag ≠ .integer 1 ∧ q.tag ≠ .integer 2

namespace Schema

variable {schema before : Schema} {p : ProtocolDeclaration} {m : MethodDeclaration} {q : Parameter}

/-- Where there is a parameter without a direction, there is a first one. -/
theorem HasUndirected.exists_first (h : schema.HasUndirected) :
    ∃ before p m q, schema.FirstUndirected before p m q := by
  obtain ⟨before, p, after, hschema, hbefore, hbad⟩ :=
    exists_first_undirected (hasUndirected_iff.mp h)
  obtain ⟨earlier, m, later, hmethods, hearlier, hm⟩ := exists_first_not hbad
  obtain ⟨front, q, back, hparameters, hfront, hq⟩ := exists_first_not hm
  refine ⟨before, p, m, q, ⟨after, hschema, hbefore⟩, ⟨earlier, later, hmethods, hearlier⟩,
    ⟨front, back, hparameters, hfront⟩, ?_⟩
  simpa [Parameter.Directed] using hq

/-- The methods of the protocol cannot be divided, and the error is about that parameter. -/
theorem FirstUndirected.toMethods_eq (h : schema.FirstUndirected before p m q) (name : Value) :
    toMethods name p.methods = .error ⟨q.tag, m.name, q.name, some name⟩ := by
  obtain ⟨earlier, later, hmethods, hearlier⟩ := h.method
  obtain ⟨front, back, hparameters, hfront⟩ := h.parameter
  have hq : ¬q.Directed := by simpa [Parameter.Directed] using h.undirected
  rw [hmethods]
  exact toMethods_of_undirected name hearlier hparameters hfront hq

/-- Extraction finds the protocols in front of the parameter, as if the schema ended there, and then
fails. By then the protocol of the parameter has been named. -/
theorem FirstUndirected.extract_eq (h : schema.FirstUndirected before p m q)
    (active settings : Settings) (counter : Int) :
    Segmented settings counter before (extract active (some settings) counter before).state ∧
      (extract active (some settings) counter schema).state =
        (extract active (some settings) counter before).state ∧
      (extract active (some settings) counter schema).counter =
        counter + Schema.nameless (before ++ [.protocol p]) ∧
      (extract active (some settings) counter schema).failure = some (.direction
        ⟨q.tag, m.name, q.name, some (definitionAt settings counter before p).name⟩) := by
  obtain ⟨after, hschema, hbefore⟩ := h.protocol
  obtain ⟨found, log, hfound, hwalk⟩ := walk_collect_append settings counter hbefore
  have hfront : (extract active (some settings) counter before).state = found := by
    have hend := hwalk []
    rw [List.append_nil, Cursor.walk_nil] at hend
    rw [extract, Cursor.start_some, hend]
    rfl
  have herror := h.toMethods_eq (protocolName settings (counter + before.nameless) p.name)
  have hstop := hwalk (.protocol p :: after)
  rw [← hschema, Cursor.walk_protocol_of_error herror, nameProtocol_counter,
    protocolName_eq_definitionAt] at hstop
  rw [hfront, extract, Cursor.start_some, hstop]
  exact ⟨hfound, rfl, rfl, rfl⟩

end Schema

/-- **A parameter without a direction stops everything at its place.** If some parameter of a schema
that is no return value has a tag other than the whole numbers one and two, there is a first one. A
walk that is advanced step by step shows the protocols in front of it, exactly as they are found in
the part of the schema in front; then the error, with the tag and the names of the parameter, its
method and its protocol; and from then on it has ended. Extraction fails with the same error. Either
way the nameless protocols have been counted up to and including the one that fails. -/
theorem walk_stops_at_first_undirected (schema : Schema) (h : schema.HasUndirected)
    (active settings : Settings) (counter : Int) :
    (∃ before p m q, schema.FirstUndirected before p m q) ∧
    ∀ before p m q, schema.FirstUndirected before p m q →
      let found := (extract active (some settings) counter before).state
      let error : DirectionError :=
        ⟨q.tag, m.name, q.name, some (definitionAt settings counter before p).name⟩
      let counted := counter + Schema.nameless (before ++ [.protocol p])
      Segmented settings counter before found ∧
      (∀ (s : Session) (id : String),
        s.StandsAt id (.start active (some settings) schema) counter →
        ∀ extra : Nat,
          let commands := List.replicate (found.length + 1 + extra) (.advanceWalk id)
          s.resultsOf id commands = found.map (fun p => .ok (.protocol p)) ++
            .error (.direction error) :: List.replicate extra (.ok .exhausted) ∧
          (s.run commands).HasEnded id counted) ∧
      (extract active (some settings) counter schema).failure = some (.direction error) ∧
      (extract active (some settings) counter schema).counter = counted := by
  refine ⟨h.exists_first, fun before p m q hfirst => ?_⟩
  obtain ⟨hsegmented, hstate, hcounter, hfailure⟩ := hfirst.extract_eq active settings counter
  refine ⟨hsegmented, fun s id hstands extra => ?_, hfailure, hcounter⟩
  obtain ⟨hresults, hended⟩ := hstands.advances hfailure extra
  rw [← extract, Walk.results, hstate, hfailure, List.append_assoc] at hresults
  rw [← extract, hstate, hcounter] at hended
  exact ⟨hresults, hended⟩

/-- A method with a parameter that is tagged with a truth value. The return value in front of it has
a strange tag too, and so has the parameter behind it. -/
def strayTagMethod : MethodDeclaration :=
  ⟨.text "Login",
    [⟨.text "code", .text "qresult", .integer 7, true⟩,
      ⟨.text "user", .text "uint32", .integer 1, false⟩,
      ⟨.text "pin", .text "uint32", .boolean true, false⟩,
      ⟨.text "hint", .text "string", .integer 3, false⟩]⟩

/-- The nameless protocol of the method. -/
def strayTagProtocol : ProtocolDeclaration :=
  ⟨.text "", [⟨.text "Logout", [⟨.text "%retval%", .text "qresult", .null, true⟩]⟩, strayTagMethod]⟩

/-- The protocol behind another nameless one and in front of one with a name. -/
def strayTagSchema : Schema :=
  [.record ⟨.text "Key", .text "", []⟩, .protocol ⟨.null, []⟩,
    .record ⟨.text "Ticket", .text "", []⟩, .protocol strayTagProtocol,
    .protocol ⟨.text "Matchmake", []⟩]

/-- A session that is about to walk through the schema. -/
def strayTagSession : Session :=
  { Session.initial with
    shared := 5
    walks := [("walk", ⟨strayTagSchema, none, .shared, 0, .unstarted⟩)] }

/-- The walk shows the first protocol, the error about the truth value, and then nothing more. -/
theorem strayTagSchema_stops :
    strayTagSchema.HasUndirected ∧
    strayTagSession.StandsAt "walk" (.start {} (some {}) strayTagSchema) 5 ∧
    strayTagSession.resultsOf "walk" (List.replicate 4 (.advanceWalk "walk")) =
      [.ok (.protocol ⟨.text "Unknown Protocol - 5", "Unknown ID", [],
          [⟨.text "Key", .text "", []⟩]⟩),
        .error (.direction ⟨.boolean true, .text "Login", .text "pin",
          some (.text "Unknown Protocol - 6")⟩),
        .ok .exhausted, .ok .exhausted] ∧
    (strayTagSession.run (List.replicate 4 (.advanceWalk "walk"))).HasEnded "walk" 7 ∧
    (extract {} (some {}) 5 strayTagSchema).failure =
      some (.direction ⟨.boolean true, .text "Login", .text "pin",
        some (.text "Unknown Protocol - 6")⟩) ∧
    (extract {} (some {}) 5 strayTagSchema).counter = 7 := by
  have hfirst : strayTagSchema.FirstUndirected (strayTagSchema.take 3) strayTagProtocol
      strayTagMethod ⟨.text "pin", .text "uint32", .boolean true, false⟩ := by
    refine ⟨⟨_, rfl, ?_⟩, ⟨[_], [], rfl, ?_⟩, ⟨[_, _], [_], rfl, ?_⟩, rfl, by simp, by simp⟩
    · simp [strayTagSchema, Schema.Directed, Schema.protocols, Declaration.protocol?]
    · simp [MethodDeclaration.Directed, Parameter.Directed]
    · simp [Parameter.Directed]
  have hundirected : strayTagSchema.HasUndirected := by
    refine ⟨strayTagProtocol, List.mem_cons_of_mem _ List.mem_cons_self, strayTagMethod,
      List.mem_cons_of_mem _ List.mem_cons_self, _,
      List.mem_cons_of_mem _ (List.mem_cons_of_mem _ List.mem_cons_self), hfirst.undirected⟩
  have hstands : strayTagSession.StandsAt "walk" (.start {} (some {}) strayTagSchema) 5 :=
    ⟨_, rfl, rfl, rfl⟩
  have hfound : (extract {} (some {}) 5 (strayTagSchema.take 3)).state =
      [⟨.text "Unknown Protocol - 5", "Unknown ID", [], [⟨.text "Key", .text "", []⟩]⟩] := by
    simp only [extract, Cursor.start, strayTagSchema, List.take_succ_cons, List.take_zero,
      Cursor.walk_record]
    rw [Cursor.walk_protocol_of_ok rfl rfl, Cursor.walk_record, Walk.after, Cursor.walk_nil]
    rfl
  obtain ⟨-, hstops⟩ := walk_stops_at_first_undirected strayTagSchema hundirected {} {} 5
  obtain ⟨-, hshown, hfailure, hcounter⟩ := hstops _ _ _ _ hfirst
  rw [hfound] at hshown
  obtain ⟨hresults, hended⟩ := hshown strayTagSession "walk" hstands 2
  exact ⟨hundirected, hstands, hresults, hended, hfailure, hcounter⟩

end ProtocolPages
