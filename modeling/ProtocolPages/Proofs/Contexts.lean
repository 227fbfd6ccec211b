import ProtocolPages.Proofs.Interleaving

/-!
# Contexts

A context puts the active settings aside when it is entered and brings them back when it is left.
What happens inside it may set and reset the active settings at will and may enter further contexts;
as long as the contexts are properly nested, what was put aside is at hand again at the right time.
The invariant is the stack of what has been put aside: commands that are properly nested leave it as
it was.
-/

namespace ProtocolPages

namespace SessionCommand

/-- Whether the command is about the active settings, rather than a run or a question. -/
def aboutSettings : SessionCommand → Bool
  | .setSettings _ => true
  | .resetSettings => true
  | .enterContext _ => true
  | .leaveContext => true
  | .failContext => true
  | _ => false

/-- Whether the command leaves a context, normally or because something failed. -/
def leaves : SessionCommand → Bool
  | .leaveContext => true
  | .failContext => true
  | _ => false

/-- Whether the command enters a context. A context whose settings cannot be used is not entered. -/
def enters : SessionCommand → Bool
  | .enterContext fields => (Settings.ofFields fields).toBool
  | _ => false

/-- A command that enters a context leaves none. -/
theorem leaves_of_enters {command : SessionCommand} (h : command.enters = true) :
    command.leaves = false := by
  cases command with
  | enterContext fields => rfl
  | _ => cases h

end SessionCommand

/-- The commands are properly nested: each context that is entered is left again, innermost first,
and nothing else is left. -/
inductive WellNested : List SessionCommand → Prop
  | nil : WellNested []
  | step {command : SessionCommand} {rest : List SessionCommand}
      (henters : command.enters = false) (hleaves : command.leaves = false)
      (hrest : WellNested rest) : WellNested (command :: rest)
  | context {entry leaving : SessionCommand} {body rest : List SessionCommand}
      (henters : entry.enters = true) (hbody : WellNested body) (hleaves : leaving.leaves = true)
      (hrest : WellNested rest) : WellNested (entry :: body ++ leaving :: rest)

/-- Each context that is left in properly nested commands has been entered before, and what lies
between is properly nested. -/
theorem WellNested.exists_entry {commands : List SessionCommand} (h : WellNested commands)
    {before after : List SessionCommand} {leaving : SessionCommand}
    (hsplit : commands = before ++ leaving :: after) (hleaves : leaving.leaves = true) :
    ∃ earlier entry body, before = earlier ++ entry :: body ∧ entry.enters = true ∧
      WellNested body := by
  induction h generalizing before after with
  | nil => simp at hsplit
  | @step command rest _ hstays _ ih =>
    cases before with
    | nil =>
      obtain rfl := (List.cons.inj hsplit).1
      rw [hstays] at hleaves
      cases hleaves
    | cons first before =>
      obtain ⟨rfl, hrest⟩ := List.cons.inj hsplit
      obtain ⟨earlier, entry, body, rfl, hentry⟩ := ih hrest
      exact ⟨command :: earlier, entry, body, rfl, hentry⟩
  | @context entry leaving' body rest henters hbody hleaves' _ ihbody ihrest =>
    cases before with
    | nil =>
      obtain rfl := (List.cons.inj hsplit).1
      rw [SessionCommand.leaves_of_enters henters] at hleaves
      cases hleaves
    | cons first before =>
      obtain ⟨rfl, hrest⟩ := List.cons.inj hsplit
      -- The context that is left is one inside the body, this one, or one behind it.
      rcases List.append_eq_append_iff.mp hrest with ⟨gap, rfl, hgap⟩ | ⟨gap, rfl, hgap⟩
      · cases gap with
        | nil => exact ⟨[], entry, body, by simp, henters, hbody⟩
        | cons next gap =>
          obtain ⟨rfl, hbehind⟩ := List.cons.inj hgap
          obtain ⟨earlier, entry', body', rfl, hentry'⟩ := ihrest hbehind
          exact ⟨entry :: body ++ leaving' :: earlier, entry', body', by simp, hentry'⟩
      · cases gap with
        | nil => exact ⟨[], entry, before, by simp, henters, by simpa using hbody⟩
        | cons next gap =>
          obtain ⟨rfl, -⟩ := List.cons.inj hgap
          obtain ⟨earlier, entry', body', rfl, hentry'⟩ := ihbody rfl
          exact ⟨entry :: earlier, entry', body', rfl, hentry'⟩

namespace Session

variable {command : SessionCommand}

/-! ## What a command changes -/

/-- Keeping the value of a counter keeps the settings, active and put aside. -/
theorem settings_setCounter (s : Session) (choice : CounterChoice) (value : Int) :
    (s.setCounter choice value).active = s.active ∧
      (s.setCounter choice value).saved = s.saved := by
  cases choice <;> exact ⟨rfl, rfl⟩

/-- A run over a whole schema keeps the settings, active and put aside. -/
theorem settings_runWalk {σ : Type} (s : Session) (request : RunRequest)
    (walk : Option Settings → Int → Schema → Walk σ) {keep : Session → σ → Session}
    (answer : σ → SessionAnswer)
    (hkeep : ∀ t state, (keep t state).active = t.active ∧ (keep t state).saved = t.saved) :
    (s.runWalk request walk keep answer).session.active = s.active ∧
      (s.runWalk request walk keep answer).session.saved = s.saved := by
  rcases s.runWalk_cases request walk keep answer with ⟨failure, hrun⟩ | ⟨_, _, result, _, hrun⟩
  · rw [hrun]
    exact ⟨rfl, rfl⟩
  · obtain ⟨hactive, hsaved⟩ := s.settings_setCounter request.choice result.counter
    obtain ⟨hkeepActive, hkeepSaved⟩ :=
      hkeep (s.setCounter request.choice result.counter) result.state
    rw [hrun]
    exact ⟨hkeepActive.trans hactive, hkeepSaved.trans hsaved⟩

/-- An advance of a walk keeps the settings, active and put aside. -/
theorem settings_advanceWalk (s : Session) (id : String) (w : LazyWalk) :
    (s.advanceWalk id w).session.active = s.active ∧
      (s.advanceWalk id w).session.saved = s.saved := by
  rcases s.advanceWalk_cases id w with hended | ⟨cursor, moved, answer, hmoved, -⟩
  · rw [hended]
    exact ⟨rfl, rfl⟩
  · rw [hmoved]
    exact s.settings_setCounter w.choice _

/-- Runs and questions keep the settings, active and put aside. -/
theorem settings_perform (s : Session) (h : command.aboutSettings = false) :
    (s.perform command).session.active = s.active ∧
      (s.perform command).session.saved = s.saved := by
  cases command with
  | setSettings | resetSettings | enterContext | leaveContext | failContext => cases h
  | extract request | build request | generate request _ =>
    exact s.settings_runWalk request _ _ fun _ _ => ⟨rfl, rfl⟩
  | openWalk id request =>
    simp only [perform]
    split
    · exact ⟨rfl, rfl⟩
    · split <;> exact ⟨rfl, rfl⟩
  | advanceWalk id =>
    simp only [perform]
    split
    · exact s.settings_advanceWalk id _
    · exact ⟨rfl, rfl⟩
  | _ => exact ⟨rfl, rfl⟩

/-- Leaving a context changes the settings and nothing else. -/
theorem leave_eq (s : Session) :
    s.leave = { s with active := s.leave.active, saved := s.leave.saved } := by
  unfold leave
  split <;> rfl

/-- A command about settings changes the settings and nothing else. -/
theorem perform_aboutSettings (s : Session) (h : command.aboutSettings = true) :
    (s.perform command).session =
      { s with
        active := (s.perform command).session.active
        saved := (s.perform command).session.saved } := by
  cases command with
  | setSettings fields =>
    simp only [perform]
    split <;> rfl
  | resetSettings => rfl
  | enterContext fields =>
    simp only [perform]
    split <;> rfl
  | leaveContext => exact s.leave_eq
  | failContext => exact s.leave_eq
  | _ => cases h

/-! ## Nesting -/

/-- Commands that come one after another are run one after another. -/
theorem run_append (s : Session) (commands later : List SessionCommand) :
    s.run (commands ++ later) = (s.run commands).run later :=
  List.foldl_append

/-- Entering a context puts the active settings aside. -/
theorem saved_of_enters (s : Session) (h : command.enters = true) :
    (s.perform command).session.saved = s.active :: s.saved := by
  cases command with
  | enterContext fields =>
    simp only [SessionCommand.enters] at h
    simp only [perform]
    split
    · rfl
    · next failure herror =>
      rw [herror] at h
      cases h
  | _ => cases h

/-- Leaving a context brings back what was put aside last. -/
theorem perform_of_leaves {s : Session} (h : command.leaves = true) {previous : Settings}
    {outer : List Settings} (hsaved : s.saved = previous :: outer) :
    (s.perform command).session = { s with active := previous, saved := outer } := by
  have hleave : s.leave = { s with active := previous, saved := outer } := by
    unfold leave
    rw [hsaved]
  cases command with
  | leaveContext => exact hleave
  | failContext => exact hleave
  | _ => cases h

/-- A command that neither enters nor leaves a context keeps what has been put aside. -/
theorem saved_of_stays (s : Session) (henters : command.enters = false)
    (hleaves : command.leaves = false) : (s.perform command).session.saved = s.saved := by
  cases habout : command.aboutSettings with
  | false => exact (s.settings_perform habout).2
  | true =>
    cases command with
    | setSettings fields =>
      simp only [perform]
      split <;> rfl
    | resetSettings => rfl
    | enterContext fields =>
      simp only [SessionCommand.enters] at henters
      simp only [perform]
      split
      · next settings hsettings =>
        rw [hsettings] at henters
        cases henters
      · rfl
    | leaveContext => cases hleaves
    | failContext => cases hleaves
    | _ => cases habout

/-- A context that is left brings back what was active when it was entered, if what was put aside in
between has been used up again. -/
theorem run_context (s : Session) {entry leaving : SessionCommand} {body : List SessionCommand}
    (henters : entry.enters = true) (hleaves : leaving.leaves = true)
    (hbody : ∀ t : Session, (t.run body).saved = t.saved) :
    (s.run (entry :: body ++ [leaving])).active = s.active ∧
      (s.run (entry :: body ++ [leaving])).saved = s.saved := by
  have hsaved : ((s.perform entry).session.run body).saved = s.active :: s.saved :=
    (hbody _).trans (s.saved_of_enters henters)
  have hrun : s.run (entry :: body ++ [leaving]) =
      (((s.perform entry).session.run body).perform leaving).session :=
    s.run_append (entry :: body) [leaving]
  rw [hrun, perform_of_leaves hleaves hsaved]
  exact ⟨rfl, rfl⟩

/-- **The stack is kept.** Properly nested commands leave what has been put aside as it was. -/
theorem saved_run {commands : List SessionCommand} (h : WellNested commands) (s : Session) :
    (s.run commands).saved = s.saved := by
  induction h generalizing s with
  | nil => rfl
  | @step command rest henters hleaves _ ih =>
    exact (ih _).trans (s.saved_of_stays henters hleaves)
  | @context entry leaving body rest henters _ hleaves _ ihbody ihrest =>
    obtain ⟨-, hsaved⟩ := s.run_context henters hleaves ihbody
    have hrun : s.run (entry :: body ++ leaving :: rest) =
        (s.run (entry :: body ++ [leaving])).run rest := by
      rw [← run_append, List.append_assoc, List.singleton_append]
    rw [hrun, ihrest, hsaved]

end Session

/-- **Contexts restore the active settings.** In properly nested commands each context that is left,
normally or by a failure, has been entered before. After it is left, the active settings are those
that were active when it was entered, whatever was set, reset, nested or failed inside. A failure
that leaves a context goes on. Runs and questions never change the active settings, and commands
about settings change neither counters nor documents nor walks. -/
theorem contexts_restore_settings (s : Session) (commands : List SessionCommand)
    (hnested : WellNested commands) :
    (∀ before leaving after, commands = before ++ leaving :: after → leaving.leaves = true →
      ∃ earlier entry body, before = earlier ++ entry :: body ∧ entry.enters = true ∧
        WellNested body) ∧
    (∀ earlier entry body leaving, entry.enters = true → WellNested body →
      leaving.leaves = true →
        ((s.run (earlier ++ (entry :: body ++ [leaving]))).perform .showSettings).answer =
          ((s.run earlier).perform .showSettings).answer) ∧
    (s.perform .failContext).answer = .ok (.failed false) ∧
    (∀ command, command.aboutSettings = false →
      (s.perform command).session.active = s.active) ∧
    ∀ command, command.aboutSettings = true →
      (s.perform command).session.counter = s.counter ∧
        (s.perform command).session.shelf = s.shelf ∧
        (s.perform command).session.walks = s.walks := by
  refine ⟨fun before leaving after hsplit hleaves => hnested.exists_entry hsplit hleaves,
    fun earlier entry body leaving henters hbody hleaves => ?_, rfl,
    fun command habout => (s.settings_perform habout).1, fun command habout => ?_⟩
  · obtain ⟨hactive, -⟩ :=
      (s.run earlier).run_context henters hleaves (Session.saved_run hbody)
    rw [Session.run_append]
    exact congrArg (fun active => Except.ok (SessionAnswer.settings active)) hactive
  · rw [s.perform_aboutSettings habout]
    exact ⟨by funext choice; cases choice <;> rfl, rfl, rfl⟩

/-- A context inside a context. The settings of both are overwritten, the inner one is left because
a run in it failed, and a context with settings that cannot be used is not entered. -/
def nestedCommands : List SessionCommand :=
  [.enterContext [("stub_language", .text "c")], .resetSettings,
    .enterContext [("wiki_base", .text "w")], .setSettings [],
    .extract ⟨.tree .null, .shared, none⟩, .failContext,
    .enterContext [("wiki_base", .integer 1)], .setSettings [("wiki_base", .text "v")],
    .leaveContext]

/-- After nested contexts the settings made active before them are active again. -/
theorem nestedCommands_restore :
    WellNested nestedCommands ∧
    ((Session.initial.run ([.setSettings [("stub_language", .text "go")]] ++
        nestedCommands)).perform .showSettings).answer =
      .ok (.settings { stubLanguage := "go" }) := by
  have hinner : WellNested ([.enterContext [("wiki_base", .text "w")], .setSettings [],
      .extract ⟨.tree .null, .shared, none⟩, .failContext,
      .enterContext [("wiki_base", .integer 1)],
      .setSettings [("wiki_base", .text "v")]] : List SessionCommand) :=
    @WellNested.context _ .failContext [.setSettings [], .extract ⟨.tree .null, .shared, none⟩]
      [.enterContext [("wiki_base", .integer 1)], .setSettings [("wiki_base", .text "v")]] rfl
      (.step rfl rfl (.step rfl rfl .nil)) rfl (.step rfl rfl (.step rfl rfl .nil))
  have hbody : WellNested (.resetSettings :: _) := .step rfl rfl hinner
  have hnested : WellNested nestedCommands :=
    @WellNested.context (.enterContext [("stub_language", .text "c")]) .leaveContext _ [] rfl hbody
      rfl .nil
  obtain ⟨-, hrestored, -⟩ := contexts_restore_settings Session.initial nestedCommands hnested
  exact ⟨hnested, hrestored [.setSettings [("stub_language", .text "go")]]
    (.enterContext [("stub_language", .text "c")]) _ .leaveContext rfl hbody rfl⟩

end ProtocolPages
