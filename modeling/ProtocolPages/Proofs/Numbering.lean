import ProtocolPages.Proofs.Segmentation
import ProtocolPages.Session
import Mathlib.Data.List.Nodup

/-!
# Numbers of made-up names

All runs of a session that share a counter take their numbers from it, in whatever order their
steps come. Every made-up name is announced in the log of the step that makes it, or answered by it,
so the names of a session can be listed from what it shows. They carry consecutive numbers, whether
or not the steps succeed, and no two of them are equal.
-/

namespace ProtocolPages

/-! ## Reading the number off a name -/

/-- What stands behind the last occurrence of `a` is determined. -/
private theorem eq_of_append_cons_eq {α : Type} {x₁ x₂ y₁ y₂ : List α} {a : α} (h₁ : a ∉ y₁)
    (h₂ : a ∉ y₂) (h : x₁ ++ a :: y₁ = x₂ ++ a :: y₂) : y₁ = y₂ := by
  rcases List.append_eq_append_iff.mp h with ⟨t, -, ht⟩ | ⟨t, -, ht⟩
  · cases t with
    | nil => exact (List.cons.inj ht).2
    | cons b t =>
      refine absurd ?_ h₁
      rw [(List.cons.inj ht).2]
      simp
  · cases t with
    | nil => exact (List.cons.inj ht).2.symm
    | cons b t =>
      refine absurd ?_ h₂
      rw [(List.cons.inj ht).2]
      simp

/-- The characters of a whole number that is not negative. -/
theorem toList_toString_ofNat (m : Nat) : (toString (Int.ofNat m)).toList = Nat.toDigits 10 m :=
  Nat.toList_repr

/-- The characters of a negative whole number. -/
theorem toList_toString_negSucc (m : Nat) :
    (toString (Int.negSucc m)).toList = '-' :: Nat.toDigits 10 (m + 1) := by
  simp [Int.repr]

/-- The digits of a number do not hold other characters. -/
theorem not_mem_toDigits {c : Char} (hc : c.isDigit = false) (n : Nat) :
    c ∉ Nat.toDigits 10 n := by
  intro hmem
  rw [Nat.isDigit_of_mem_toDigits (by decide) (by decide) hmem] at hc
  exact nomatch hc

/-- Different numbers have different digits. -/
theorem toDigits_injective {m n : Nat} (h : Nat.toDigits 10 m = Nat.toDigits 10 n) : m = n := by
  have hread := congrArg (Nat.ofDigitChars 10 · 0) h
  simpa using hread

/-- The text of a whole number holds no blank. -/
theorem blank_not_mem_toString_int (n : Int) : ' ' ∉ (toString n).toList := by
  cases n with
  | ofNat m =>
    rw [toList_toString_ofNat]
    exact not_mem_toDigits (by decide) m
  | negSucc m =>
    rw [toList_toString_negSucc, List.mem_cons, not_or]
    exact ⟨by decide, not_mem_toDigits (by decide) (m + 1)⟩

/-- Different whole numbers have different texts. -/
theorem toString_int_injective {m n : Int} (h : toString m = toString n) : m = n := by
  have hchars := congrArg String.toList h
  cases m with
  | ofNat a =>
    cases n with
    | ofNat b =>
      rw [toList_toString_ofNat, toList_toString_ofNat] at hchars
      rw [toDigits_injective hchars]
    | negSucc b =>
      rw [toList_toString_ofNat, toList_toString_negSucc] at hchars
      exact absurd (hchars ▸ List.mem_cons_self) (not_mem_toDigits (c := '-') (by decide) a)
  | negSucc a =>
    cases n with
    | ofNat b =>
      rw [toList_toString_ofNat, toList_toString_negSucc] at hchars
      exact absurd (hchars ▸ List.mem_cons_self) (not_mem_toDigits (c := '-') (by decide) b)
    | negSucc b =>
      rw [toList_toString_negSucc, toList_toString_negSucc] at hchars
      rw [Nat.succ.inj (toDigits_injective (List.cons.inj hchars).2)]

/-- The number of a made-up name can be read off it, whatever the name starts with. -/
theorem syntheticName_number {start₁ start₂ : String} {m n : Int}
    (h : syntheticName start₁ m = syntheticName start₂ n) : m = n := by
  have hchars : (start₁.toList ++ [' ', '-']) ++ ' ' :: (toString m).toList =
      (start₂.toList ++ [' ', '-']) ++ ' ' :: (toString n).toList := by
    simpa [syntheticName] using congrArg String.toList h
  exact toString_int_injective
    (String.toList_injective (eq_of_append_cons_eq (blank_not_mem_toString_int m)
      (blank_not_mem_toString_int n) hchars))

/-! ## Names with consecutive numbers -/

/-- The names are made up from the counter, one after another, and leave it at its new value. -/
inductive Numbered : Int → List String → Int → Prop
  | nil (counter : Int) : Numbered counter [] counter
  | cons {counter after : Int} {names : List String} (start : String)
      (h : Numbered (counter + 1) names after) :
      Numbered counter (syntheticName start counter :: names) after

namespace Numbered

variable {counter middle after : Int} {names later : List String}

/-- One name takes one number. -/
theorem single (start : String) (counter : Int) :
    Numbered counter [syntheticName start counter] (counter + 1) :=
  .cons start (.nil _)

/-- Names that are made one after another go on with the numbers. -/
theorem append (h : Numbered counter names middle) (hlater : Numbered middle later after) :
    Numbered counter (names ++ later) after := by
  induction h with
  | nil => exact hlater
  | cons start _ ih => exact .cons start (ih hlater)

/-- The counter moves on by the number of names. -/
theorem after_eq (h : Numbered counter names after) : after = counter + names.length := by
  induction h with
  | nil => simp
  | cons start _ ih =>
    rw [ih, List.length_cons]
    omega

/-- The name at position `k` carries the number that lies `k` after the counter. -/
theorem get_eq (h : Numbered counter names after) {k : Nat} (hk : k < names.length) :
    ∃ start, names[k] = syntheticName start (counter + k) := by
  induction h generalizing k with
  | nil => exact nomatch hk
  | @cons counter _ names start _ ih =>
    cases k with
    | zero => exact ⟨start, by simp⟩
    | succ k =>
      obtain ⟨start', hname⟩ := ih (Nat.lt_of_succ_lt_succ hk)
      refine ⟨start', ?_⟩
      rw [List.getElem_cons_succ, hname]
      congr 1
      omega

/-- No name is made twice, whatever the names start with. -/
theorem nodup (h : Numbered counter names after) : names.Nodup := by
  rw [List.nodup_iff_injective_get]
  intro i j hij
  obtain ⟨start₁, h₁⟩ := h.get_eq i.isLt
  obtain ⟨start₂, h₂⟩ := h.get_eq j.isLt
  have hnames : syntheticName start₁ (counter + i) = syntheticName start₂ (counter + j) := by
    rw [← h₁, ← h₂]
    exact hij
  have hnumbers := syntheticName_number hnames
  exact Fin.ext (by omega)

end Numbered

/-! ## Names in a log -/

/-- The words in front of a made-up name in the log. -/
def announcement : String := "Could not determine real protocol name. Defaulting to "

/-- The made-up name that a record announces, if it announces one. -/
def LogRecord.madeName? (r : LogRecord) : Option String :=
  if r.level = .warning ∧ announcement.toList <+: r.message.toList then
    some (String.ofList (r.message.toList.drop announcement.length))
  else none

/-- The made-up names that a log announces, in order. -/
def Log.madeNames (log : Log) : List String :=
  log.filterMap LogRecord.madeName?

@[simp] theorem Log.madeNames_nil : Log.madeNames [] = [] := rfl

@[simp] theorem Log.madeNames_append (log₁ log₂ : Log) :
    Log.madeNames (log₁ ++ log₂) = log₁.madeNames ++ log₂.madeNames :=
  List.filterMap_append

/-- A record of another level than a warning announces nothing. -/
theorem LogRecord.madeName?_of_level {r : LogRecord} (h : r.level ≠ .warning) :
    r.madeName? = none := by
  simp [madeName?, h]

/-- The announcement of a name is read as that name. -/
theorem LogRecord.madeName?_announcement (name : String) :
    LogRecord.madeName? ⟨.warning, announcement ++ name⟩ = some name := by
  have hdrop : (announcement.toList ++ name.toList).drop announcement.length = name.toList := by
    rw [← String.length_toList, List.drop_left]
  simp [madeName?, hdrop]

/-- The announcement of a repeated protocol announces no made-up name. -/
theorem madeName?_repeatRecord (name : Value) : (repeatRecord name).madeName? = none := by
  simp [LogRecord.madeName?, repeatRecord, announcement]

/-- A log announces the name of a nameless protocol and no other. -/
theorem madeNames_namingLog (settings : Settings) (counter : Int) (declared : Value) :
    (namingLog settings counter declared).madeNames =
      if declared.isVacant then [syntheticName settings.unknownProtocolPrefix counter] else [] := by
  have hfound (message : String) : Log.madeNames [⟨.info, message⟩] = [] := by
    simp [Log.madeNames, LogRecord.madeName?_of_level]
  rw [namingLog, Log.madeNames_append, hfound, List.append_nil]
  cases hvacant : declared.isVacant with
  | true =>
    rw [nameProtocol_of_nameless hvacant, if_pos rfl]
    exact List.filterMap_cons_some (LogRecord.madeName?_announcement _)
  | false =>
    rw [nameProtocol_of_named hvacant, if_neg Bool.false_ne_true]
    rfl

/-- A log without warnings announces nothing. -/
theorem madeNames_of_levels {log : Log} (h : ∀ r ∈ log, r.level ≠ .warning) :
    log.madeNames = [] :=
  List.filterMap_eq_nil_iff.mpr fun r hr => LogRecord.madeName?_of_level (h r hr)

/-- Naming a protocol takes the next number if it is nameless, and none if it is not. -/
theorem namingLog_numbered (settings : Settings) (counter : Int) (declared : Value) :
    Numbered counter (namingLog settings counter declared).madeNames
      (nameProtocol settings counter declared).2.1 := by
  rw [madeNames_namingLog]
  cases hvacant : declared.isVacant with
  | true =>
    rw [nameProtocol_of_nameless hvacant]
    exact .single _ counter
  | false =>
    rw [nameProtocol_of_named hvacant]
    exact .nil counter

/-! ## Names of walks -/

/-- Dropping records takes no number. -/
theorem dropPending_numbered (counter : Int) (records : List Record) :
    Numbered counter (dropPending counter records).log.madeNames
      (dropPending counter records).counter := by
  unfold dropPending
  split
  · exact .nil counter
  · split
    · rw [madeNames_of_levels (by simp)]
      exact .nil counter
    · exact .nil counter

/-- What an advance can come to: the end of the schema, where records are dropped, or the first
protocol that is left, which is named and then found or given up. -/
theorem Cursor.next_cases (c : Cursor) (counter : Int) :
    (Schema.protocols c.remaining = [] ∧
      ∃ records, c.next counter = dropPending counter records) ∨
    ∃ p pull, (Schema.protocols c.remaining).head? = some p ∧
      c.next counter = ⟨pull, (nameProtocol c.settings counter p.name).2.1,
        namingLog c.settings counter p.name⟩ ∧
      ∀ found rest, pull = .found found rest →
        found.name = protocolName c.settings counter p.name := by
  obtain ⟨settings, schema, pending⟩ := c
  induction schema generalizing pending with
  | nil => exact Or.inl ⟨rfl, pending, rfl⟩
  | cons d rest ih =>
    cases d with
    | record r => exact ih (pending ++ [r])
    | protocol p =>
      refine Or.inr ⟨p, ?_⟩
      cases hmethods : toMethods (protocolName settings counter p.name) p.methods with
      | ok methods =>
        refine ⟨_, rfl, next_protocol_of_ok hmethods, fun found rest hfound => ?_⟩
        cases hfound
        rfl
      | error e => exact ⟨_, rfl, next_protocol_of_error hmethods, nofun⟩

/-- An advance numbers the protocol it comes to, also if that protocol then fails. -/
theorem Cursor.next_numbered (c : Cursor) (counter : Int) :
    Numbered counter (c.next counter).log.madeNames (c.next counter).counter := by
  rcases c.next_cases counter with ⟨-, records, hend⟩ | ⟨p, pull, -, hnext, -⟩
  · rw [hend]
    exact dropPending_numbered counter records
  · rw [hnext]
    exact namingLog_numbered c.settings counter p.name

/-- An advance makes up a name exactly if the protocol it comes to is nameless, and the protocol is
found under that name. -/
theorem Cursor.madeNames_next (c : Cursor) (counter : Int) {p : ProtocolDeclaration}
    (h : (Schema.protocols c.remaining).head? = some p) :
    (c.next counter).log.madeNames =
      (if p.name.isVacant then [syntheticName c.settings.unknownProtocolPrefix counter] else []) ∧
    ∀ found rest, (c.next counter).pull = .found found rest →
      found.name = protocolName c.settings counter p.name := by
  rcases c.next_cases counter with ⟨hnone, -⟩ | ⟨q, pull, hfirst, hnext, hname⟩
  · rw [hnone] at h
    exact nomatch h
  · obtain rfl : q = p := Option.some.inj (hfirst.symm.trans h)
    rw [hnext]
    exact ⟨madeNames_namingLog c.settings counter q.name, hname⟩

/-- A walk whose visits announce nothing takes a number for each nameless protocol it comes to. -/
theorem Cursor.walk_numbered {σ : Type} {visit : σ → Protocol → Visit σ}
    (hvisit : ∀ state p, (visit state p).log.madeNames = []) (c : Cursor) (counter : Int)
    (state : σ) :
    Numbered counter (c.walk visit counter state).log.madeNames
      (c.walk visit counter state).counter := by
  have hadvance := c.next_numbered counter
  cases hpull : (c.next counter).pull with
  | finished => rwa [walk_of_finished hpull]
  | failed failure => rwa [walk_of_failed hpull]
  | found protocol rest =>
    cases hfailure : (visit state protocol).failure with
    | some failure =>
      rw [walk_of_visit_failed hpull hfailure]
      simpa [hvisit] using hadvance
    | none =>
      -- The visit announces nothing, so the names are those of this advance and of the rest.
      have hrest : rest.remaining.length < c.remaining.length :=
        remaining_length_lt_of_advance hpull
      have hlater := rest.walk_numbered hvisit (c.next counter).counter
        (visit state protocol).state
      rw [walk_of_visited hpull hfailure]
      simpa [Walk.after, hvisit] using hadvance.append hlater
termination_by c.remaining.length

/-- Extraction numbers the nameless protocols it comes to. -/
theorem extract_numbered (active : Settings) (own : Option Settings) (counter : Int)
    (schema : Schema) :
    Numbered counter (extract active own counter schema).log.madeNames
      (extract active own counter schema).counter :=
  Cursor.walk_numbered (fun _ _ => rfl) _ counter _

/-- The announcement of a repeated name announces no made-up name. -/
theorem madeNames_announceRepeat (name : Value) (seen : List Value) :
    (announceRepeat name seen).madeNames = [] := by
  unfold announceRepeat
  split
  · simp [Log.madeNames, madeName?_repeatRecord]
  · rfl

/-- Rendering documents numbers the nameless protocols it comes to. -/
theorem buildDocuments_numbered (active : Settings) (own : Option Settings) (counter : Int)
    (schema : Schema) :
    Numbered counter (buildDocuments active own counter schema).log.madeNames
      (buildDocuments active own counter schema).counter := by
  refine Cursor.walk_numbered (fun documents p => ?_) _ counter _
  unfold addDocument
  split
  · split <;> exact madeNames_announceRepeat _ _
  · rfl

/-- Writing documents numbers the nameless protocols it comes to. -/
theorem generate_numbered {σ : Type} (active : Settings) (own : Option Settings)
    (writer : Writer σ) (store : σ) (folder : Path) (counter : Int) (schema : Schema) :
    Numbered counter (generate active own writer store folder counter schema).log.madeNames
      (generate active own writer store folder counter schema).counter := by
  refine Cursor.walk_numbered (fun state p => ?_) _ counter _
  unfold publish
  split
  · split
    · dsimp only
      split
      · rw [Log.madeNames_append, madeNames_announceRepeat, madeNames_of_levels (by simp)]
        rfl
      · exact madeNames_announceRepeat _ _
    · exact madeNames_announceRepeat _ _
  · rfl

/-! ## Names of sessions -/

/-- Reading elements reports nothing but details. -/
theorem Node.level_of_mem_readElements {index : Nat} {items : List Value} {r : LogRecord}
    (h : r ∈ (readElements index items).1) : r.level = .debug := by
  induction items generalizing index with
  | nil => exact nomatch h
  | cons item rest ih =>
    simp only [readElements] at h
    split at h
    · exact nomatch h
    · split at h
      · exact ih h
      · rcases List.mem_cons.mp h with rfl | hrest
        · rfl
        · exact ih hrest

/-- Reading a schema announces no name. -/
theorem madeNames_load (source : Schema.Source) : (Schema.load source).1.madeNames = [] := by
  have htree (tree : Value) : (Schema.loadTree tree).1.madeNames = [] := by
    refine madeNames_of_levels fun r hr => ?_
    simp only [Schema.loadTree, Schema.ofTree] at hr
    split at hr
    · exact nomatch hr
    · rw [Node.level_of_mem_readElements hr]
      exact nofun
  cases source with
  | tree value => exact htree value
  | text s =>
    simp only [Schema.load, Schema.loadText]
    split
    · rfl
    · rfl
    · exact htree _
    · rfl

/-- The made-up names that a step shows: those in its log, and the one it answers. -/
def SessionStep.madeNames (step : SessionStep) : List String :=
  step.log.madeNames ++
    match step.answer with
    | .ok (.name s) => [s]
    | _ => []

/-- A step that answers no name shows the names in its log only. -/
theorem SessionStep.madeNames_of_answer {step : SessionStep}
    (h : ∀ name, step.answer ≠ .ok (.name name)) : step.madeNames = step.log.madeNames := by
  unfold madeNames
  split
  · next name hname => exact absurd hname (h name)
  · exact List.append_nil _

/-- The counter that a command takes numbers from, if it takes any. -/
def SessionCommand.counterUsed (s : Session) : SessionCommand → Option CounterChoice
  | .nextName _ => some .shared
  | .extract request => some request.choice
  | .build request => some request.choice
  | .generate request _ => some request.choice
  | .advanceWalk id => (s.walks.lookup id).map (·.choice)
  | _ => none

namespace Session

/-- The session after some commands. -/
def run (s : Session) (commands : List SessionCommand) : Session :=
  commands.foldl (fun s command => (s.perform command).session) s

/-- The names that commands make up from one of the counters, in order. -/
def madeNames (choice : CounterChoice) (s : Session) : List SessionCommand → List String
  | [] => []
  | command :: rest =>
    (if command.counterUsed s = some choice then (s.perform command).madeNames else []) ++
      (s.perform command).session.madeNames choice rest

variable {choice : CounterChoice}

/-- Keeping the value of a counter changes that counter and no other. -/
theorem counter_setCounter (hkept : choice ≠ .fresh) (s : Session) (used : CounterChoice)
    (value : Int) :
    (s.setCounter used value).counter choice =
      if used = choice then value else s.counter choice := by
  cases choice with
  | shared => cases used <;> rfl
  | process => cases used <;> rfl
  | fresh => exact absurd rfl hkept

/-- What a run over a whole schema can come to: it stops before the walk and leaves the session as
it was, or it keeps what the walk leaves, whether or not the walk failed. -/
theorem runWalk_cases {σ : Type} (s : Session) (request : RunRequest)
    (walk : Option Settings → Int → Schema → Walk σ) (keep : Session → σ → Session)
    (answer : σ → SessionAnswer) :
    (∃ failure, s.runWalk request walk keep answer =
      ⟨s, (prepare request).1, .error failure⟩) ∨
    ∃ own schema result, result = walk own (s.counter request.choice) schema ∧
      s.runWalk request walk keep answer =
        ⟨keep (s.setCounter request.choice result.counter) result.state,
          (prepare request).1 ++ result.log,
          result.failure.elim (.ok (answer result.state)) .error⟩ := by
  unfold runWalk
  split
  · next log failure hprepare => exact Or.inl ⟨failure, by rw [hprepare]⟩
  · next log schema own hprepare =>
    refine Or.inr ⟨own, schema, _, rfl, ?_⟩
    rw [hprepare]
    dsimp only
    split
    · next failure hfailure => rw [hfailure]; rfl
    · next hfailure => rw [hfailure]; rfl

/-- A run over a whole schema takes its numbers from the counter it was asked to use. -/
theorem runWalk_numbered {σ : Type} (hkept : choice ≠ .fresh) (s : Session) (request : RunRequest)
    {walk : Option Settings → Int → Schema → Walk σ} {keep : Session → σ → Session}
    {answer : σ → SessionAnswer}
    (hwalk : ∀ own counter schema, Numbered counter
      (walk own counter schema).log.madeNames (walk own counter schema).counter)
    (hkeep : ∀ (t : Session) (state : σ), (keep t state).counter choice = t.counter choice)
    (hanswer : ∀ state name, answer state ≠ .name name) :
    Numbered (s.counter choice)
      (if some request.choice = some choice then (s.runWalk request walk keep answer).madeNames
        else [])
      ((s.runWalk request walk keep answer).session.counter choice) := by
  have hlog : (prepare request).1.madeNames = [] := madeNames_load request.source
  rcases s.runWalk_cases request walk keep answer with
    ⟨failure, hrun⟩ | ⟨own, schema, result, hresult, hrun⟩
  · rw [hrun, SessionStep.madeNames_of_answer (by simp), hlog, ite_self]
    exact .nil _
  · have hnumbered := hwalk own (s.counter request.choice) schema
    rw [← hresult] at hnumbered
    have hno : ∀ name, (s.runWalk request walk keep answer).answer ≠ .ok (.name name) := by
      intro name hname
      rw [hrun] at hname
      cases hfailure : result.failure with
      | none => exact hanswer _ name (by simpa [hfailure] using hname)
      | some failure => simp [hfailure] at hname
    rw [SessionStep.madeNames_of_answer hno, hrun, hkeep, counter_setCounter hkept,
      Log.madeNames_append, hlog, List.nil_append]
    by_cases hchoice : request.choice = choice
    · simpa [hchoice] using hnumbered
    · simpa [hchoice] using Numbered.nil (s.counter choice)

/-- What an advance of a walk can come to: the walk has ended, or it makes one advance from its
place and keeps the counter and the place behind it. -/
theorem advanceWalk_cases (s : Session) (id : String) (w : LazyWalk) :
    s.advanceWalk id w = ⟨s, [], .ok .exhausted⟩ ∨
    ∃ (cursor : Cursor) (moved : LazyWalk) (answer : Except Failure SessionAnswer),
      s.advanceWalk id w =
        ⟨(s.setCounter w.choice (cursor.next (s.walkCounter w)).counter).putWalk id moved,
          (cursor.next (s.walkCounter w)).log, answer⟩ ∧
      ∀ name, answer ≠ .ok (.name name) := by
  unfold advanceWalk
  split
  · exact Or.inl rfl
  · next cursor _ =>
    refine Or.inr ⟨cursor, ?_⟩
    dsimp only
    split
    · exact ⟨_, _, rfl, by simp⟩
    · exact ⟨_, _, rfl, by simp⟩
    · exact ⟨_, _, rfl, by simp⟩

/-- A walk on a counter that the session keeps goes on with the value of that counter. -/
theorem walkCounter_of_kept (hkept : choice ≠ .fresh) (s : Session) {w : LazyWalk}
    (hchoice : w.choice = choice) : s.walkCounter w = s.counter choice := by
  subst hchoice
  unfold walkCounter
  split
  · next hfresh => exact absurd hfresh hkept
  · rfl

/-- Putting a walk under a name changes no counter. -/
@[simp] theorem counter_putWalk (s : Session) (id : String) (w : LazyWalk) :
    (s.putWalk id w).counter = s.counter := by
  funext used
  cases used <;> rfl

/-- An advance of a walk takes its numbers from the counter of the walk. -/
theorem advanceWalk_numbered (hkept : choice ≠ .fresh) (s : Session) (id : String) (w : LazyWalk) :
    Numbered (s.counter choice)
      (if some w.choice = some choice then (s.advanceWalk id w).madeNames else [])
      ((s.advanceWalk id w).session.counter choice) := by
  rcases s.advanceWalk_cases id w with hended | ⟨cursor, moved, answer, hmoved, hanswer⟩
  · rw [hended, SessionStep.madeNames_of_answer (by simp), Log.madeNames_nil, ite_self]
    exact .nil _
  · rw [hmoved, SessionStep.madeNames_of_answer hanswer, counter_putWalk,
      counter_setCounter hkept]
    by_cases hchoice : w.choice = choice
    · rw [if_pos (congrArg some hchoice), if_pos hchoice, walkCounter_of_kept hkept s hchoice]
      exact cursor.next_numbered _
    · simpa [hchoice] using Numbered.nil (s.counter choice)

/-- Leaving a context changes no counter. -/
@[simp] theorem counter_leave (s : Session) : s.leave.counter = s.counter := by
  funext used
  unfold leave
  split <;> cases used <;> rfl

/-- A command that uses no counter leaves all of them as they are. -/
theorem counter_perform_of_unused {s : Session} {command : SessionCommand}
    (h : command.counterUsed s = none) : (s.perform command).session.counter = s.counter := by
  cases command with
  | nextName start => exact nomatch h
  | extract request => exact nomatch h
  | build request => exact nomatch h
  | generate request folder => exact nomatch h
  | setSettings fields =>
    simp only [perform]
    split <;> funext used <;> cases used <;> rfl
  | resetSettings => funext used; cases used <;> rfl
  | enterContext fields =>
    simp only [perform]
    split <;> funext used <;> cases used <;> rfl
  | leaveContext => exact counter_leave s
  | failContext => exact counter_leave s
  | openWalk id request =>
    simp only [perform]
    split
    · rfl
    · split
      · rfl
      · exact counter_putWalk s id _
  | advanceWalk id =>
    cases hwalk : s.walks.lookup id with
    | none => simp [perform, hwalk, reply]
    | some w => simp [SessionCommand.counterUsed, hwalk] at h
  | _ => rfl

/-- A command takes its numbers from the counter that it uses, and leaves the others as they are. -/
theorem perform_numbered (hkept : choice ≠ .fresh) (s : Session) (command : SessionCommand) :
    Numbered (s.counter choice)
      (if command.counterUsed s = some choice then (s.perform command).madeNames else [])
      ((s.perform command).session.counter choice) := by
  have hunused (h : command.counterUsed s = none) : Numbered (s.counter choice)
      (if command.counterUsed s = some choice then (s.perform command).madeNames else [])
      ((s.perform command).session.counter choice) := by
    rw [counter_perform_of_unused h, h, if_neg nofun]
    exact .nil _
  -- Only five commands use a counter; of these, an advance uses none if there is no such walk.
  cases command with
  | nextName start =>
    cases choice with
    | shared => exact .single start s.shared
    | process => exact .nil s.process
    | fresh => exact absurd rfl hkept
  | extract request =>
    exact runWalk_numbered hkept s request (extract_numbered s.active) (fun _ _ => rfl) (by simp)
  | build request =>
    exact runWalk_numbered hkept s request (buildDocuments_numbered s.active) (fun _ _ => rfl)
      (by simp)
  | generate request folder =>
    refine runWalk_numbered hkept s request (fun own counter schema => ?_) ?_ (by simp)
    · exact generate_numbered s.active own .memory s.shelf (.ofString folder) counter schema
    · intro t state
      cases choice <;> rfl
  | advanceWalk id =>
    cases hwalk : s.walks.lookup id with
    | none => exact hunused (by simp [SessionCommand.counterUsed, hwalk])
    | some w =>
      simp only [SessionCommand.counterUsed, perform, hwalk, Option.map_some]
      exact advanceWalk_numbered hkept s id w
  | _ => exact hunused rfl

/-- Commands take their numbers from a counter one after another. -/
theorem run_numbered (hkept : choice ≠ .fresh) (s : Session) (commands : List SessionCommand) :
    Numbered (s.counter choice) (s.madeNames choice commands)
      ((s.run commands).counter choice) := by
  induction commands generalizing s with
  | nil => exact .nil _
  | cons command rest ih =>
    exact (perform_numbered hkept s command).append (ih (s.perform command).session)

end Session

/-- **No number is lost, reused or skipped.** Take any session and any commands, among them whole
runs, single advances of any number of walks, and requests for names, failed or not. The names made
up from a counter that the session keeps carry the numbers from the counter on, in order; the
counter moves on by the number of names; and the names are pairwise different, whatever they start
with. An advance makes up a name exactly if the protocol it comes to is nameless, whether or not the
protocol can then be taken out, and if it can, it has that name. -/
theorem session_names_consecutive (s : Session) (commands : List SessionCommand)
    (choice : CounterChoice) (hkept : choice ≠ .fresh) :
    (∀ (k : Nat) (hk : k < (s.madeNames choice commands).length), ∃ start : String,
      (s.madeNames choice commands)[k] = start ++ " - " ++ toString (s.counter choice + k)) ∧
    (s.run commands).counter choice =
      s.counter choice + (s.madeNames choice commands).length ∧
    (s.madeNames choice commands).Nodup ∧
    ∀ (c : Cursor) (counter : Int) (p : ProtocolDeclaration),
      (Schema.protocols c.remaining).head? = some p →
        (c.next counter).log.madeNames =
          (if p.name.isVacant then [syntheticName c.settings.unknownProtocolPrefix counter]
            else []) ∧
        ∀ found rest, (c.next counter).pull = .found found rest →
          found.name = protocolName c.settings counter p.name := by
  have hnumbered := Session.run_numbered hkept s commands
  exact ⟨fun k hk => hnumbered.get_eq hk, hnumbered.after_eq, hnumbered.nodup,
    fun c counter p h => c.madeNames_next counter h⟩

/-- Two walks share the counter of a session. The first comes to a nameless protocol and then to one
that cannot be taken out; the second has settings of its own. -/
def interleavedSession : Session :=
  { Session.initial with
    shared := 5
    walks :=
      [("first", ⟨[.protocol ⟨.null, []⟩, .protocol ⟨.text "", [⟨.text "Login",
          [⟨.text "user", .text "uint32", .integer 7, false⟩]⟩]⟩], none, .shared, 0, .unstarted⟩),
        ("second", ⟨[.record ⟨.text "Key", .text "", []⟩, .protocol ⟨.text "", []⟩],
          some { unknownProtocolPrefix := "P" }, .shared, 0, .unstarted⟩)] }

/-- Advances of both walks, with requests for names between them. -/
def interleavedCommands : List SessionCommand :=
  [.advanceWalk "first", .nextName "P - 5", .advanceWalk "second", .advanceWalk "first",
    .advanceWalk "first", .nextName "P"]

/-- Walks that share a counter take turns in making up names, and none is made up twice. -/
theorem session_names_interleaved :
    CounterChoice.shared ≠ .fresh ∧
    interleavedSession.madeNames .shared interleavedCommands =
      ["Unknown Protocol - 5", "P - 5 - 6", "P - 7", "Unknown Protocol - 8", "P - 9"] ∧
    (interleavedSession.run interleavedCommands).counter .shared = 10 ∧
    (interleavedSession.madeNames .shared interleavedCommands).Nodup := by
  have hnames : interleavedSession.madeNames .shared interleavedCommands =
      ["Unknown Protocol - 5", "P - 5 - 6", "P - 7", "Unknown Protocol - 8", "P - 9"] := by
    decide
  obtain ⟨-, hcounter, hnodup, -⟩ :=
    session_names_consecutive interleavedSession interleavedCommands .shared nofun
  rw [hnames] at hcounter
  exact ⟨nofun, hnames, hcounter, hnodup⟩

end ProtocolPages
