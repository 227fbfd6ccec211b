import ProtocolPages.Proofs.Numbering

/-!
# Walks side by side

A walk that is advanced by commands keeps its place, the records that wait and its settings to
itself. All that it shares with the rest of a session is a counter, and a counter shows nowhere but
in the numbers of made-up names. Whatever happens between its advances, they therefore show what the
walk would show on its own. The proof is a simulation: two advances from one place, made with
different counters, show the same up to numbers and come to the same place.
-/

namespace ProtocolPages

/-- What an advance of a walk shows: a protocol, a failure, or that the walk has ended. -/
abbrev WalkResult := Except Failure SessionAnswer

/-- Two results that differ in the number of a made-up name and in nothing else. The name is that of
a protocol, or of the protocol that an error is about. -/
inductive Renumbered (start : String) : WalkResult → WalkResult → Prop
  | protocol (p : Protocol) (m n : Int) :
      Renumbered start (.ok (.protocol { p with name := .text (syntheticName start m) }))
        (.ok (.protocol { p with name := .text (syntheticName start n) }))
  | failure (e : DirectionError) (m n : Int) :
      Renumbered start
        (.error (.direction { e with protocol := some (.text (syntheticName start m)) }))
        (.error (.direction { e with protocol := some (.text (syntheticName start n)) }))

/-- Two results of an advance to the protocol `declared` are equal, unless that protocol is
nameless: then the number of its made-up name may differ. -/
def AgreeUpToNumber (settings : Settings) (declared : Option ProtocolDeclaration)
    (x y : WalkResult) : Prop :=
  x = y ∨ ∃ p, declared = some p ∧ p.name.isVacant = true ∧
    Renumbered settings.unknownProtocolPrefix x y

/-! ## One advance with two counters -/

/-- The error, as one about the given protocol. -/
def DirectionError.about (protocol : Value) (e : DirectionError) : DirectionError :=
  { e with protocol := some protocol }

/-- The name of the protocol matters to the division of parameters in the error only. -/
theorem bucketParameters_about (protocol other method : Value) (parameters : List Parameter) :
    bucketParameters protocol method parameters =
      (bucketParameters other method parameters).mapError (.about protocol) := by
  induction parameters with
  | nil => rfl
  | cons p rest ih =>
    simp only [bucketParameters, ih]
    split
    · rw [mapError_bind]
      rfl
    · split
      · rw [mapError_bind]
        rfl
      · rw [mapError_bind]
        rfl
      · rfl

/-- The name of the protocol matters to the division of a method in the error only. -/
theorem MethodDeclaration.toMethod_about (protocol other : Value) (m : MethodDeclaration) :
    m.toMethod protocol = (m.toMethod other).mapError (.about protocol) := by
  rw [toMethod, toMethod, bucketParameters_about protocol other, mapError_bind]
  rfl

/-- The name of the protocol matters to the division of its methods in the error only. -/
theorem toMethods_about (protocol other : Value) (methods : List MethodDeclaration) :
    toMethods protocol methods = (toMethods other methods).mapError (.about protocol) := by
  induction methods with
  | nil => rfl
  | cons m rest ih =>
    simp only [toMethods, m.toMethod_about protocol other, ih, mapError_bind, mapError_pure]

/-- An error of a division is about the protocol that was divided. -/
theorem DirectionError.about_eq_self {protocol : Value} {methods : List MethodDeclaration}
    {e : DirectionError} (h : toMethods protocol methods = .error e) : e.about protocol = e := by
  have hself := toMethods_about protocol protocol methods
  rw [h] at hself
  exact (Except.error.inj hself).symm

/-- What a pull shows. -/
def Pull.result : Pull → WalkResult
  | .found protocol _ => .ok (.protocol protocol)
  | .failed failure => .error failure
  | .finished => .ok .exhausted

/-- The place that a pull leaves, unless the walk has ended with it. -/
def Pull.rest? : Pull → Option Cursor
  | .found _ rest => some rest
  | _ => none

/-- Dropping records comes to the same with every counter. -/
theorem pull_dropPending (a b : Int) (records : List Record) :
    (dropPending a records).pull = (dropPending b records).pull := by
  unfold dropPending
  split
  · rfl
  · split <;> rfl

namespace Cursor

/-- Where an advance goes does not depend on the counter: to the end of the schema, or to the first
protocol that is left. -/
theorem next_target (c : Cursor) :
    (Schema.protocols c.remaining = [] ∧
      ∃ records, ∀ counter, c.next counter = dropPending counter records) ∨
    ∃ p later records, Schema.protocols c.remaining = p :: Schema.protocols later ∧
      ∀ counter, c.next counter =
        (Cursor.mk c.settings (.protocol p :: later) records).next counter := by
  obtain ⟨settings, schema, pending⟩ := c
  induction schema generalizing pending with
  | nil => exact Or.inl ⟨rfl, pending, fun _ => rfl⟩
  | cons d later ih =>
    cases d with
    | record r => exact ih (pending ++ [r])
    | protocol p => exact Or.inr ⟨p, later, pending, rfl, fun _ => rfl⟩

/-- Two advances to a protocol that stands next, with different counters. -/
theorem next_protocol_agree (settings : Settings) (p : ProtocolDeclaration) (later : Schema)
    (records : List Record) (a b : Int) :
    let c : Cursor := ⟨settings, .protocol p :: later, records⟩
    AgreeUpToNumber settings (some p) (c.next a).pull.result (c.next b).pull.result ∧
      (c.next a).pull.rest? = (c.next b).pull.rest? ∧
      ∀ rest, (c.next a).pull.rest? = some rest → rest = ⟨settings, later, []⟩ := by
  intro c
  have hmethods := toMethods_about (protocolName settings a p.name)
    (protocolName settings b p.name) p.methods
  cases hb : toMethods (protocolName settings b p.name) p.methods with
  | ok methods =>
    rw [hb] at hmethods
    have hnexta : c.next a = _ := next_protocol_of_ok hmethods
    have hnextb : c.next b = _ := next_protocol_of_ok hb
    rw [hnexta, hnextb]
    refine ⟨?_, rfl, fun rest hrest => (Option.some.inj hrest).symm⟩
    cases hvacant : p.name.isVacant with
    | true =>
      refine Or.inr ⟨p, rfl, hvacant, ?_⟩
      rw [protocolName, protocolName, nameProtocol_of_nameless hvacant,
        nameProtocol_of_nameless hvacant]
      exact .protocol ⟨.null, settings.unknownProtocolId, methods, records⟩ a b
    | false =>
      refine Or.inl ?_
      rw [protocolName, protocolName, nameProtocol_of_named hvacant,
        nameProtocol_of_named hvacant]
  | error e =>
    have habout := DirectionError.about_eq_self hb
    rw [hb] at hmethods
    have hnexta : c.next a = _ := next_protocol_of_error hmethods
    have hnextb : c.next b = _ := next_protocol_of_error hb
    rw [hnexta, hnextb]
    refine ⟨?_, rfl, fun rest hrest => by cases hrest⟩
    cases hvacant : p.name.isVacant with
    | true =>
      refine Or.inr ⟨p, rfl, hvacant, ?_⟩
      rw [protocolName, nameProtocol_of_nameless hvacant] at habout ⊢
      rw [← habout]
      exact .failure e a b
    | false =>
      refine Or.inl ?_
      rw [protocolName, nameProtocol_of_named hvacant] at habout ⊢
      simp only [Pull.result, habout]

/-- **One advance with two counters.** Both show the same up to the number of a made-up name, and
both leave the same place, which has the same settings and lies one protocol further on. -/
theorem next_agree (c : Cursor) (a b : Int) :
    AgreeUpToNumber c.settings (Schema.protocols c.remaining).head? (c.next a).pull.result
        (c.next b).pull.result ∧
      (c.next a).pull.rest? = (c.next b).pull.rest? ∧
      ∀ rest, (c.next a).pull.rest? = some rest → rest.settings = c.settings ∧
        Schema.protocols rest.remaining = (Schema.protocols c.remaining).tail := by
  rcases c.next_target with ⟨-, records, hend⟩ | ⟨p, later, records, hprotocols, hnext⟩
  · rw [hend a, hend b, pull_dropPending a b]
    refine ⟨Or.inl rfl, rfl, fun rest hrest => ?_⟩
    unfold dropPending at hrest
    split at hrest
    · cases hrest
    · split at hrest <;> cases hrest
  · obtain ⟨hagree, hsame, hrest⟩ := next_protocol_agree c.settings p later records a b
    rw [hnext a, hnext b, hprotocols]
    refine ⟨hagree, hsame, fun rest h => ?_⟩
    rw [hrest rest h]
    exact ⟨rfl, rfl⟩

end Cursor

/-! ## A walk on its own -/

/-- What a walk shows from start to end: its protocols in order and then, if it fails, the
failure. -/
def Walk.results (w : Walk (List Protocol)) : List WalkResult :=
  w.state.map (fun p => .ok (.protocol p)) ++ w.failure.toList.map .error

/-- What a walk shows at the given advance, counted from zero. When everything has been shown, it
has ended. -/
def Walk.resultAt (w : Walk (List Protocol)) (k : Nat) : WalkResult :=
  w.results[k]?.getD (.ok .exhausted)

namespace Cursor

/-- What was collected before a walk stays in front of what the walk finds, and makes no other
difference. -/
theorem walk_collect (c : Cursor) (counter : Int) (found : List Protocol) :
    c.walk collect counter found =
      { c.walk collect counter [] with
        state := found ++ (c.walk collect counter []).state } := by
  cases hpull : (c.next counter).pull with
  | finished => simp [walk_of_finished hpull]
  | failed failure => simp [walk_of_failed hpull]
  | found protocol rest =>
    have hrest : rest.remaining.length < c.remaining.length := remaining_length_lt_of_advance hpull
    have hwith := rest.walk_collect (c.next counter).counter (found ++ [protocol])
    have hwithout := rest.walk_collect (c.next counter).counter [protocol]
    rw [walk_of_visited hpull rfl, walk_of_visited hpull rfl]
    simp [collect, Walk.after, hwith, hwithout]
termination_by c.remaining.length

/-- A walk finds what its first advance finds, and then what is found from the place behind it. -/
theorem walk_collect_of_found {c rest : Cursor} {counter : Int} {protocol : Protocol}
    (h : (c.next counter).pull = .found protocol rest) :
    c.walk collect counter [] =
      { (rest.walk collect (c.next counter).counter []).after (c.next counter).log with
        state := protocol :: (rest.walk collect (c.next counter).counter []).state } := by
  rw [walk_of_visited h rfl]
  simp [collect, Walk.after, rest.walk_collect (c.next counter).counter [protocol]]

/-- A walk shows what its first advance shows, and then what is shown from the place behind it. -/
theorem results_walk (c : Cursor) (counter : Int) {protocol : Protocol} {rest : Cursor}
    (h : (c.next counter).pull = .found protocol rest) :
    (c.walk collect counter []).results =
      .ok (.protocol protocol) :: (rest.walk collect (c.next counter).counter []).results := by
  rw [walk_collect_of_found h]
  rfl

/-- The first result of a walk is that of its first advance. -/
theorem resultAt_zero (c : Cursor) (counter : Int) :
    (c.walk collect counter []).resultAt 0 = (c.next counter).pull.result := by
  unfold Walk.resultAt
  cases hpull : (c.next counter).pull with
  | finished =>
    rw [walk_of_finished hpull]
    rfl
  | failed failure =>
    rw [walk_of_failed hpull]
    rfl
  | found protocol rest =>
    rw [c.results_walk counter hpull]
    rfl

/-- The later results of a walk are those from the place behind its first advance, if it has not
ended there. -/
theorem resultAt_succ (c : Cursor) (counter : Int) (k : Nat) :
    (c.walk collect counter []).resultAt (k + 1) =
      (c.next counter).pull.rest?.elim (.ok .exhausted) fun rest =>
        (rest.walk collect (c.next counter).counter []).resultAt k := by
  unfold Walk.resultAt
  cases hpull : (c.next counter).pull with
  | finished =>
    rw [walk_of_finished hpull]
    rfl
  | failed failure =>
    rw [walk_of_failed hpull]
    rfl
  | found protocol rest =>
    rw [c.results_walk counter hpull]
    rfl

/-- The results are those of a walk from the place on its own, with whatever counter, up to the
numbers of made-up names. -/
def ShownBy (c : Cursor) (results : List WalkResult) : Prop :=
  ∀ (alone : Int) (k : Nat) (x : WalkResult), results[k]? = some x →
    AgreeUpToNumber c.settings (Schema.protocols c.remaining)[k]? x
      ((c.walk collect alone []).resultAt k)

/-- One advance shows what a walk on its own shows first. What is shown later is shown from the
place behind it, or says that the walk has ended. -/
theorem shownBy_cons (c : Cursor) (counter : Int) {later : List WalkResult}
    (hrest : ∀ rest, (c.next counter).pull.rest? = some rest → rest.ShownBy later)
    (hended : (c.next counter).pull.rest? = none → ∀ x ∈ later, x = .ok .exhausted) :
    c.ShownBy ((c.next counter).pull.result :: later) := by
  intro alone k x hx
  obtain ⟨hagree, hsame, hplace⟩ := c.next_agree counter alone
  cases k with
  | zero =>
    rw [c.resultAt_zero, ← Option.some.inj hx, ← List.head?_eq_getElem?]
    exact hagree
  | succ k =>
    rw [c.resultAt_succ, ← hsame]
    rw [List.getElem?_cons_succ] at hx
    cases hnext : (c.next counter).pull.rest? with
    | none => exact Or.inl (hended hnext x (List.mem_of_getElem? hx))
    | some rest =>
      -- Both walks go on from the same place, one protocol further on.
      obtain ⟨hsettings, hprotocols⟩ := hplace rest hnext
      have hlater := hrest rest hnext (c.next alone).counter k x hx
      rwa [hsettings, hprotocols, List.getElem?_tail] at hlater

end Cursor

/-! ## A walk in a session -/

/-- Whether the command advances the walk with the given name. -/
def SessionCommand.advances (id : String) : SessionCommand → Bool
  | .advanceWalk other => other == id
  | _ => false

/-- Whether the command starts a walk under the given name. -/
def SessionCommand.opens (id : String) : SessionCommand → Bool
  | .openWalk other _ => other == id
  | _ => false

/-- The stage of a walk whose next place is the given one. -/
def Stage.ofRest : Option Cursor → Stage
  | some rest => .running rest
  | none => .ended

namespace Session

/-- What the advances of the walk with the given name show, in order, while commands are run. -/
def resultsOf (id : String) (s : Session) : List SessionCommand → List WalkResult
  | [] => []
  | command :: rest =>
    if command.advances id then
      (s.perform command).answer :: (s.perform command).session.resultsOf id rest
    else (s.perform command).session.resultsOf id rest

section Walks

variable {id : String} {command : SessionCommand} {w : LazyWalk}

/-- Keeping the value of a counter keeps the walks. -/
@[simp] theorem walks_setCounter (s : Session) (choice : CounterChoice) (value : Int) :
    (s.setCounter choice value).walks = s.walks := by
  cases choice <;> rfl

/-- A walk is found under the name it is put under; the other names are as before. -/
theorem lookup_putWalk (s : Session) (id other : String) (w : LazyWalk) :
    (s.putWalk other w).walks.lookup id =
      if id = other then some w else s.walks.lookup id :=
  Ordered.lookup_put id other w s.walks

/-- A run over a whole schema keeps the walks. -/
theorem walks_runWalk {σ : Type} (s : Session) (request : RunRequest)
    (walk : Option Settings → Int → Schema → Walk σ) {keep : Session → σ → Session}
    (answer : σ → SessionAnswer) (hkeep : ∀ t state, (keep t state).walks = t.walks) :
    (s.runWalk request walk keep answer).session.walks = s.walks := by
  rcases s.runWalk_cases request walk keep answer with ⟨failure, hrun⟩ | ⟨_, _, result, _, hrun⟩
  · rw [hrun]
  · rw [hrun, hkeep, walks_setCounter]

/-- An advance of another walk keeps a walk. -/
theorem lookup_advanceWalk (s : Session) {other : String} (h : other ≠ id) (w : LazyWalk) :
    (s.advanceWalk other w).session.walks.lookup id = s.walks.lookup id := by
  rcases s.advanceWalk_cases other w with hended | ⟨cursor, moved, answer, hmoved, -⟩
  · rw [hended]
  · rw [hmoved, lookup_putWalk, if_neg (Ne.symm h), walks_setCounter]

/-- Leaving a context keeps the walks. -/
@[simp] theorem walks_leave (s : Session) : s.leave.walks = s.walks := by
  unfold leave
  split <;> rfl

/-- A command keeps each walk that it neither advances nor replaces. -/
theorem lookup_perform (s : Session) (hadvances : command.advances id = false)
    (hopens : command.opens id = false) :
    (s.perform command).session.walks.lookup id = s.walks.lookup id := by
  cases command with
  | setSettings | enterContext =>
    simp only [perform]
    split <;> rfl
  | leaveContext | failContext => exact congrArg (List.lookup id) s.walks_leave
  | extract request | build request | generate request _ =>
    exact congrArg (List.lookup id) (s.walks_runWalk request _ _ fun _ _ => rfl)
  | openWalk other request =>
    have hother : other ≠ id := by simpa [SessionCommand.opens] using hopens
    simp only [perform]
    split
    · rfl
    · split
      · rfl
      · rw [lookup_putWalk, if_neg (Ne.symm hother)]
  | advanceWalk other =>
    have hother : other ≠ id := by simpa [SessionCommand.advances] using hadvances
    simp only [perform]
    split
    · exact s.lookup_advanceWalk hother _
    · rfl
  | _ => rfl

/-- Commands keep each walk that they neither advance nor replace. -/
theorem lookup_run {s : Session} {commands : List SessionCommand}
    (h : ∀ command ∈ commands, command.advances id = false ∧ command.opens id = false) :
    (s.run commands).walks.lookup id = s.walks.lookup id := by
  induction commands generalizing s with
  | nil => rfl
  | cons command rest ih =>
    obtain ⟨hfirst, hrest⟩ := List.forall_mem_cons.mp h
    exact (ih hrest).trans (s.lookup_perform hfirst.1 hfirst.2)

/-- Commands that do not advance a walk show nothing of it. -/
theorem resultsOf_append {s : Session} {before : List SessionCommand}
    (h : ∀ command ∈ before, command.advances id = false) (after : List SessionCommand) :
    s.resultsOf id (before ++ after) = (s.run before).resultsOf id after := by
  induction before generalizing s with
  | nil => rfl
  | cons command rest ih =>
    obtain ⟨hfirst, hrest⟩ := List.forall_mem_cons.mp h
    rw [List.cons_append, resultsOf, hfirst]
    exact ih hrest

/-- A walk that moves on takes its counter with it, wherever that is kept. -/
theorem walkCounter_moved (s : Session) (id : String) (w : LazyWalk) (value : Int) (stage : Stage) :
    ((s.setCounter w.choice value).putWalk id { w with own := value, stage := stage }).walkCounter
      { w with own := value, stage := stage } = value := by
  unfold walkCounter
  cases w.choice <;> rfl

/-- An advance of a walk shows what the advance from its place shows, and puts it at the place
behind. -/
theorem advanceWalk_eq (s : Session) (id : String) {c : Cursor} (hplace : s.cursorOf w = some c) :
    (s.advanceWalk id w).answer = (c.next (s.walkCounter w)).pull.result ∧
      ∃ moved, (s.advanceWalk id w).session.walks.lookup id = some moved ∧
        moved.stage = .ofRest (c.next (s.walkCounter w)).pull.rest? ∧
        (s.advanceWalk id w).session.walkCounter moved = (c.next (s.walkCounter w)).counter := by
  have hmoved (stage : Stage) := s.walkCounter_moved id w (c.next (s.walkCounter w)).counter stage
  unfold advanceWalk
  rw [hplace]
  dsimp only
  cases hpull : (c.next (s.walkCounter w)).pull with
  | found protocol rest => exact ⟨rfl, _, by rw [lookup_putWalk, if_pos rfl], rfl, hmoved _⟩
  | failed failure => exact ⟨rfl, _, by rw [lookup_putWalk, if_pos rfl], rfl, hmoved _⟩
  | finished => exact ⟨rfl, _, by rw [lookup_putWalk, if_pos rfl], rfl, hmoved _⟩

/-- A command that advances a walk is an advance with its name. -/
theorem eq_advanceWalk (h : command.advances id = true) : command = .advanceWalk id := by
  cases command with
  | advanceWalk other => rw [eq_of_beq h]
  | _ => cases h

/-- There is one result for each advance. -/
theorem length_resultsOf (s : Session) (commands : List SessionCommand) :
    (s.resultsOf id commands).length = commands.countP (·.advances id) := by
  induction commands generalizing s with
  | nil => rfl
  | cons command rest ih =>
    rw [resultsOf, List.countP_cons]
    split <;> simp [ih]

/-- A walk that has ended shows nothing more. -/
theorem resultsOf_of_ended {s : Session} (hwalk : s.walks.lookup id = some w)
    (hstage : w.stage = .ended) {commands : List SessionCommand}
    (hopens : ∀ command ∈ commands, command.opens id = false) :
    ∀ x ∈ s.resultsOf id commands, x = .ok .exhausted := by
  induction commands generalizing s with
  | nil => exact List.forall_mem_nil _
  | cons command rest ih =>
    obtain ⟨hfirst, hrest⟩ := List.forall_mem_cons.mp hopens
    rw [resultsOf]
    cases hadvances : command.advances id with
    | false => exact ih ((s.lookup_perform hadvances hfirst).trans hwalk) hrest
    | true =>
      obtain rfl := eq_advanceWalk hadvances
      have hstep : s.perform (.advanceWalk id) = ⟨s, [], .ok .exhausted⟩ := by
        simp only [perform, hwalk, advanceWalk, cursorOf, hstage]
      rw [if_pos rfl, hstep]
      exact List.forall_mem_cons.mpr ⟨rfl, ih hwalk hrest⟩

/-- What a walk shows from an advance on, if from the place behind it the same can be said. -/
theorem shownBy_advance {s : Session} {c : Cursor} {after : List SessionCommand}
    (hwalk : s.walks.lookup id = some w) (hplace : s.cursorOf w = some c)
    (hopens : ∀ command ∈ after, command.opens id = false)
    (hlater : ∀ (t : Session) (moved : LazyWalk) (rest : Cursor),
      t.walks.lookup id = some moved → moved.stage = .running rest →
        rest.ShownBy (t.resultsOf id after)) :
    c.ShownBy (s.resultsOf id (.advanceWalk id :: after)) := by
  have hstep : s.perform (.advanceWalk id) = s.advanceWalk id w := by
    simp only [perform, hwalk]
  obtain ⟨hanswer, moved, hmoved, hstage, -⟩ := s.advanceWalk_eq id hplace
  have hadvances : (SessionCommand.advanceWalk id).advances id = true := beq_self_eq_true id
  rw [resultsOf, if_pos hadvances, hstep, hanswer]
  refine c.shownBy_cons (s.walkCounter w) (fun rest hrest => ?_) fun hnone => ?_
  · rw [hrest] at hstage
    exact hlater _ moved rest hmoved hstage
  · rw [hnone] at hstage
    exact resultsOf_of_ended hmoved hstage hopens

/-- The run of commands keeps a walk under way in step with the walk on its own: each command of
another kind leaves it at its place, and each advance takes it on. -/
theorem shownBy_of_running {s : Session} {c : Cursor} {commands : List SessionCommand}
    (hwalk : s.walks.lookup id = some w) (hstage : w.stage = .running c)
    (hopens : ∀ command ∈ commands, command.opens id = false) :
    c.ShownBy (s.resultsOf id commands) := by
  induction commands generalizing s w c with
  | nil =>
    intro alone k x hx
    simp [resultsOf] at hx
  | cons command rest ih =>
    obtain ⟨hfirst, hrest⟩ := List.forall_mem_cons.mp hopens
    cases hadvances : command.advances id with
    | false =>
      rw [resultsOf, hadvances]
      exact ih ((s.lookup_perform hadvances hfirst).trans hwalk) hstage hrest
    | true =>
      obtain rfl := eq_advanceWalk hadvances
      have hplace : s.cursorOf w = some c := by rw [cursorOf, hstage]
      exact shownBy_advance hwalk hplace hrest fun t moved place hmoved hat => ih hmoved hat hrest

end Walks

end Session

/-- **Walks do not interfere.** Take any session, any walk in it that has not been advanced yet, and
any commands, as long as none of them starts another walk under the same name. Up to the numbers of
made-up names, the advances of the walk show what the walk shows on its own from start to end: the
protocols in order, then the failure if there is one, and from then on that it has ended. Its
settings are its own or, if it has none, those that are active at its first advance. -/
theorem walks_do_not_interfere (s : Session) (id : String) (w : LazyWalk)
    (before after : List SessionCommand) (hwalk : s.walks.lookup id = some w)
    (hstage : w.stage = .unstarted)
    (hbefore : ∀ command ∈ before, command.advances id = false)
    (hopens : ∀ command ∈ before ++ after, command.opens id = false) :
    let commands := before ++ .advanceWalk id :: after
    let settings := w.settings.getD (s.run before).active
    (s.resultsOf id commands).length = commands.countP (·.advances id) ∧
    ∀ (active : Settings) (alone : Int) (k : Nat) (x : WalkResult),
      (s.resultsOf id commands)[k]? = some x →
      AgreeUpToNumber settings w.schema.protocols[k]? x
        ((extract active (some settings) alone w.schema).resultAt k) := by
  intro commands settings
  obtain ⟨hopensBefore, hopensAfter⟩ := List.forall_mem_append.mp hopens
  refine ⟨s.length_resultsOf commands, ?_⟩
  have hkept : (s.run before).walks.lookup id = some w :=
    (Session.lookup_run fun command h => ⟨hbefore command h, hopensBefore command h⟩).trans hwalk
  have hplace : (s.run before).cursorOf w = some ⟨settings, w.schema, []⟩ := by
    rw [Session.cursorOf, hstage]
    rfl
  have hshown := Session.shownBy_advance hkept hplace hopensAfter
    fun t moved rest hmoved hat => Session.shownBy_of_running hmoved hat hopensAfter
  rw [← Session.resultsOf_append hbefore] at hshown
  exact fun _ => hshown

/-- A walk without settings of its own. Its second protocol is nameless like the first and cannot be
taken out. -/
def unsettledWalk : LazyWalk :=
  ⟨[.protocol ⟨.null, []⟩, .protocol ⟨.text "", [⟨.text "Login",
      [⟨.text "user", .text "uint32", .integer 7, false⟩]⟩]⟩], none, .shared, 0, .unstarted⟩

/-- The walk shares its counter with another one, which has settings of its own. -/
def switchingSession : Session :=
  { Session.initial with
    shared := 5
    walks :=
      [("first", unsettledWalk),
        ("second", ⟨[.protocol ⟨.text "", []⟩], some { unknownProtocolPrefix := "Q" }, .shared, 0,
          .unstarted⟩)] }

/-- Other settings become active before the first advance of the walk. -/
def commandsBefore : List SessionCommand :=
  [.setSettings [("unknown_protocol_prefix", .text "P")], .advanceWalk "second"]

/-- The settings change again between its advances, and names are made up from its counter. -/
def commandsAfter : List SessionCommand :=
  [.resetSettings, .nextName "N", .advanceWalk "first", .advanceWalk "second", .advanceWalk "first"]

/-- The advances of the walk show what it shows alone with the settings of its first advance. -/
theorem unsettledWalk_unaffected :
    switchingSession.walks.lookup "first" = some unsettledWalk ∧
    unsettledWalk.stage = .unstarted ∧
    (∀ command ∈ commandsBefore, command.advances "first" = false) ∧
    (∀ command ∈ commandsBefore ++ commandsAfter, command.opens "first" = false) ∧
    (switchingSession.resultsOf "first"
      (commandsBefore ++ .advanceWalk "first" :: commandsAfter)).length = 3 ∧
    AgreeUpToNumber { unknownProtocolPrefix := "P" } unsettledWalk.schema.protocols[1]?
      (.error (.direction ⟨.integer 7, .text "Login", .text "user", some (.text "P - 8")⟩))
      ((extract {} (some { unknownProtocolPrefix := "P" }) 0 unsettledWalk.schema).resultAt 1) := by
  have hbefore : ∀ command ∈ commandsBefore, command.advances "first" = false := by
    simp [commandsBefore, SessionCommand.advances]
  have hopens : ∀ command ∈ commandsBefore ++ commandsAfter, command.opens "first" = false := by
    simp [commandsBefore, commandsAfter, SessionCommand.opens]
  obtain ⟨hlength, hagree⟩ := walks_do_not_interfere switchingSession "first" unsettledWalk
    commandsBefore commandsAfter rfl rfl hbefore hopens
  exact ⟨rfl, rfl, hbefore, hopens, hlength, hagree {} 0 1 _ rfl⟩

end ProtocolPages
