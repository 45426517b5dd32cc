import Raphael.Agent.Orchestrator.EndingAgreement
import Raphael.Agent.Orchestrator.VerifiedCompletion

/-! # The persisted context

`transition` writes the state of the task into the context that is stored. The agent and
its executor save the context that was loaded when the run began, and its `current_state`
is never changed: every such save puts the state of the start back. -/

namespace Raphael.Agent.Orchestrator

open Core Foundation
open Agent.Executor Agent.Recovery
open Raphael.Runtime Tools

variable {World : Type}

/-- The persisted context has the state of the persisted task. -/
def ContextAgrees (state : AgentState World) : Prop :=
  state.saved.currentState = state.task

/-- The context of a run as it begins: read from a store in which it agrees. -/
structure Loaded (start : AgentState World) : Prop where
  agrees : ContextAgrees start
  read : start.context = start.saved

namespace SingleAgent

variable (agent : SingleAgent World)

/-! ## A run, phase by phase -/

/-- `_drive`, up to what its understanding returns. -/
def understood (goalText : String) : AgentM World TaskSpec := do
  agent.checkCancelled
  agent.understand goalText

def surveyed (goalText : String) : AgentM World TaskSpec := do
  let spec ← agent.understood goalText
  agent.checkCancelled
  agent.aware
  return spec

def researched (goalText : String) : AgentM World String := do
  let spec ← agent.surveyed goalText
  agent.checkCancelled
  agent.researchFor goalText spec

def recollected (goalText : String) : AgentM World String := do
  let research ← agent.researched goalText
  let recalled ← agent.recall_ goalText
  return Text.join "\n" ([recalled, research].filter (· ≠ ""))

/-- `resume`, up to the walk to its execution. -/
def resumed : AgentM World Plan := do
  match (← get).context.plan with
  | none => throw agent.noPlan
  | some plan =>
      walkTo .executing
      return plan

def verified (plan : Plan) :
    AgentM World (ExecutionResult × List (String × VerificationResult)) := do
  let execution ← agent.execute plan
  agent.checkCancelled
  let verifications ← agent.verify plan execution
  return (execution, verifications)

def recovered (plan : Plan) : AgentM World (ExecutionResult ×
    List (String × VerificationResult) × Option RecoveryOutcome) := do
  let (execution, verifications) ← agent.verified plan
  let recovery ← agent.recoverIfNeeded plan execution verifications
  return (execution, verifications, recovery)

/-- A run up to the end of one of its phases, whatever the phase returns. -/
def upTo {answer : Type} (phase : AgentM World answer) : AgentM World Unit := do
  let _ ← phase
  return ()

/-- The phases behind the plan. -/
def pursuits (planned : AgentM World Plan) : List (AgentM World Unit) :=
  [upTo (planned >>= agent.execute), upTo (planned >>= agent.verified),
    upTo (planned >>= agent.recovered), upTo (planned >>= agent.pursue)]

/-- A run up to the end of each of its phases. -/
def phases : Entry → List (AgentM World Unit)
  | .runTask goalText =>
      [upTo (agent.understood goalText), upTo (agent.surveyed goalText),
        upTo (agent.researched goalText), upTo (agent.recollected goalText),
        upTo (agent.prepare goalText)] ++ agent.pursuits (agent.prepare goalText)
  | .resume => upTo agent.resumed :: agent.withoutToken.pursuits agent.resumed

/-- A run up to the end of the first phase that saves the context. -/
def firstSave : Entry → AgentM World Unit
  | .runTask goalText => upTo (agent.understood goalText)
  | .resume => upTo (agent.resumed >>= agent.withoutToken.execute)

/-- The persisted task and context agree between the phases and behind the run. -/
structure AgreesThroughout (entry : Entry) (start : AgentState World) : Prop where
  between : ∀ phase ∈ agent.phases entry, ∀ state,
    phase start = .ok () state → ContextAgrees state
  behind : ∀ result final, agent.run entry start = .ok result final → ContextAgrees final

/-- Nothing that a run saves is out of date: the task has ended before; or the first phase
that saves does not come to its end or leaves the task as it was, and the run raises. -/
def SavesUpToDate (entry : Entry) (start : AgentState World) : Prop :=
  isTerminal start.task = true ∨
    (∀ state, agent.firstSave entry start = .ok () state → state.task = start.task) ∧
      ∀ result final, agent.run entry start ≠ .ok result final

theorem prepare_eq (goalText : String) :
    agent.prepare goalText = agent.recollected goalText >>= agent.plan goalText := by
  unfold prepare recollected researched surveyed understood
  simp only [bind_assoc, pure_bind]

theorem pursue_eq (plan : Plan) :
    agent.pursue plan = (do
      let (execution, verifications, recovery) ← agent.recovered plan
      let memoryIds ← agent.perform agent.storeMemories
      return {
        plan, execution, recovery, memoryIds
        verifications := recovery.elim verifications reverify }) := by
  unfold pursue recovered verified
  simp only [bind_assoc, pure_bind]

variable {agent} {start state final : AgentState World}

theorem upTo_eq_ok {answer : Type} {phase : AgentM World answer} :
    upTo phase start = .ok () state ↔ ∃ value, phase start = .ok value state := by
  unfold upTo
  rw [bind_eq_ok]
  constructor
  · rintro ⟨value, between, returns, last⟩
    rcases pure_eq_ok.mp last with ⟨_, rfl⟩
    exact ⟨value, returns⟩
  · rintro ⟨value, returns⟩
    exact ⟨value, state, returns, rfl⟩

/-- The first part of a program returns where the program does. -/
theorem first_of_bind {answer value : Type} {first : AgentM World answer}
    {rest : answer → AgentM World value} {result : value}
    (returns : (first >>= rest) start = .ok result state) :
    ∃ answer between, first start = .ok answer between :=
  let ⟨answer, between, ran, _⟩ := bind_eq_ok.mp returns
  ⟨answer, between, ran⟩

/-! ## What a run does to the context that it holds -/

theorem held_runInvariant (held : TaskState) :
    RunInvariant agent fun state => state.context.currentState = held where
  outside state world same := by
    unfold interrupted
    split <;> exact same
  context _ _ unchanged same := unchanged.trans same
  saved _ _ same := same
  emits _ _ _ same := same
  moves _ _ _ same := same

/-- While the agent waits, the task stays where it is or is cancelled. -/
theorem sameOrCancelled_callInvariant (task : TaskState) :
    CallInvariant agent fun state => state.task = task ∨ state.task = .cancelled where
  outside state world same := by
    unfold interrupted
    split
    · exact .inr rfl
    · exact same
  context _ _ _ same := same
  saved _ _ same := same

/-- A task that has ended stays as it is. -/
theorem terminal_runInvariant {task : TaskState} (terminal : isTerminal task = true) :
    RunInvariant agent fun state => state.task = task where
  outside state world same := by
    unfold interrupted
    simp [same, terminal]
  context _ _ _ same := same
  saved _ _ same := same
  emits _ _ _ same := same
  moves state target valid same := by
    rw [same, isValidTransition_of_terminal terminal] at valid
    cases valid

theorem saved_of_save {answer : Unit} (saves : agent.save state = .ok answer final) :
    final.saved = state.context := by
  rcases bind_eq_ok.mp saves with ⟨_, _, looks, performs⟩
  cases looks
  rcases bind_eq_ok.mp performs with ⟨_, between, _, writes⟩
  cases writes
  rfl

/-- What is saved last is the context that is held, with the task ended. -/
def EndsStale (held : TaskState) (final : AgentState World) : Prop :=
  final.saved.currentState = held ∧ isTerminal final.task = true

theorem context_ended (target : TaskState) (state : AgentState World) :
    (ended target state).context = state.context := by
  unfold ended
  split <;> rfl

theorem cancelled_stale {error : String} {result : AgentResult}
    (returns : agent.cancelled error state = .ok result final) :
    EndsStale state.context.currentState final := by
  have task := (cancelled_returned returns).2.1
  rw [cancelled_apply] at returns
  rcases bind_eq_ok.mp returns with ⟨_, between, saves, last⟩
  rcases pure_eq_ok.mp last with ⟨_, rfl⟩
  rw [EndsStale, saved_of_save saves, context_ended, task]
  exact ⟨rfl, isTerminal_ended rfl state⟩

theorem fail_stale {error : String} {result : AgentResult}
    (returns : agent.fail error state = .ok result final) :
    EndsStale state.context.currentState final := by
  have task := (fail_returned returns).2.1
  rw [fail_apply] at returns
  rcases bind_eq_ok.mp returns with ⟨_, published, emitted, saving⟩
  rcases bind_eq_ok.mp saving with ⟨_, between, saves, last⟩
  rcases pure_eq_ok.mp last with ⟨_, rfl⟩
  have unchanged : published.context = (ended .failed state).context := by
    cases emitted
    rfl
  rw [EndsStale, saved_of_save saves, unchanged, context_ended, task]
  exact ⟨rfl, isTerminal_ended rfl state⟩

theorem report_stale {reached : Reached} {verification : VerificationResult}
    {status : AgentStatus} {result : AgentResult}
    (terminal : isTerminal state.task = true)
    (returns : agent.report reached verification status state = .ok result final) :
    EndsStale state.context.currentState final := by
  have keeps := @held_runInvariant _ agent state.context.currentState
  have task := ((terminal_runInvariant terminal).report _ _ _).returned rfl returns
  rcases bind_eq_ok.mp returns with ⟨summary, first, summarizes, named⟩
  rcases bind_eq_ok.mp named with ⟨sources, second, names, replied⟩
  rcases bind_eq_ok.mp replied with ⟨reply, third, replies, noted⟩
  rcases bind_eq_ok.mp noted with ⟨_, fourth, notes, looked⟩
  rcases bind_eq_ok.mp looked with ⟨_, fifth, looks, saving⟩
  rcases bind_eq_ok.mp saving with ⟨_, sixth, saves, last⟩
  rcases pure_eq_ok.mp last with ⟨_, rfl⟩
  cases looks
  have heldFirst := (keeps.summarize _ _ _).returned rfl summarizes
  rw [state_of_ofExcept names] at replies
  have heldThird := (keeps.collectReply _ _).returned heldFirst replies
  have heldFourth := (keeps.noteSources _).returned heldThird notes
  rw [EndsStale, saved_of_save saves, task]
  exact ⟨heldFourth, terminal⟩

theorem complete_stale {reached : Reached} {result : AgentResult}
    (returns : agent.complete reached state = .ok result final) :
    EndsStale state.context.currentState final := by
  rcases complete_cases reached state with ⟨_, same⟩ | ⟨error, same⟩ |
    ⟨status, target, event, _, terminal, _, _, _, same⟩
  · exact cancelled_stale (same.symm.trans returns)
  · cases same.symm.trans returns
  · rw [same] at returns
    have stale := report_stale (by exact terminal) returns
    exact stale

theorem handle_stale {error : Error} {result : AgentResult}
    (returns : agent.handle error state = .ok result final) :
    EndsStale state.context.currentState final := by
  have others : (do
        if ← agent.tokenCancelled then agent.cancelled agent.cancellation
        else agent.fail (agent.sanitizeException error)) state = .ok result final →
      EndsStale state.context.currentState final := by
    intro returns
    rcases bind_eq_ok.mp returns with ⟨token, after, reads, ends⟩
    have held := (@held_runInvariant _ agent _).tokenCancelled.returned rfl reads
    rw [← held]
    cases token with
    | true => exact cancelled_stale ends
    | false => exact fail_stale ends
  cases error with
  | cancelled message => exact cancelled_stale returns
  | _ => exact others returns

/-- What a run does before its completion, and how it handles what is raised. -/
theorem run_cases (entry : Entry) (start : AgentState World) :
    (∃ error, agent.run entry start = .error error start) ∨
    ∃ effect handler,
      agent.run entry start =
        (tryCatch (effect >>= agent.complete) handler : AgentM World AgentResult) start ∧
      (∀ {invariant}, RunInvariant agent invariant →
        (∀ state trace, invariant state → invariant { state with trace }) →
        Preserves invariant effect ∧ ∀ error, Preserves invariant (handler error)) ∧
      ∀ error (between final : AgentState World) result,
        handler error between = .ok result final →
          EndsStale between.context.currentState final := by
  cases entry with
  | runTask goalText =>
      refine .inr ⟨agent.prepare goalText >>= agent.pursue, agent.handle, ?_, ?_,
        fun _ _ _ _ => handle_stale⟩
      · rw [bind_assoc]
        rfl
      · intro invariant keeps unobserved
        exact ⟨(keeps.phases.prepare goalText).bind (keeps.phases.pursue unobserved),
          keeps.handle⟩
  | resume =>
      have looks : (get : AgentM World (AgentState World)) start = .ok start start := rfl
      cases resumable : start.context.plan with
      | none =>
          refine .inl ⟨agent.noPlan, ?_⟩
          change agent.resume start = _
          unfold resume
          rw [bind_apply, looks]
          simp only [resumable]
          rfl
      | some plan =>
          refine .inr ⟨agent.pursueAgain plan,
            fun error => agent.fail (agent.sanitizeException error), ?_, ?_,
            fun _ _ _ _ => fail_stale⟩
          · change agent.resume start = _
            unfold resume pursueAgain
            rw [bind_apply, looks, bind_assoc]
            simp only [resumable]
          · intro invariant keeps unobserved
            have again : RunInvariant agent.withoutToken invariant :=
              { keeps with }
            exact ⟨(keeps.phases.walkTo rfl).bind fun _ =>
              again.phases.pursue unobserved plan, fun error => keeps.fail _⟩

/-- A run keeps what survives whatever it does. -/
theorem run_keeps {invariant : AgentState World → Prop} (keeps : RunInvariant agent invariant)
    (unobserved : ∀ state trace, invariant state → invariant { state with trace })
    (entry : Entry) : Preserves invariant (agent.run entry) := by
  intro start holds
  unfold leaves
  rcases @run_cases _ agent entry start with
    ⟨error, raised⟩ | ⟨effect, handler, same, kept, _⟩
  · rw [raised]
    exact holds
  · rcases kept keeps unobserved with ⟨body, handles⟩
    rw [same]
    exact ((body.bind keeps.complete).tryCatch handles) start holds

/-- A run that returns has saved the context it holds behind the end of its task. -/
theorem run_stale {entry : Entry} {result : AgentResult}
    (returns : agent.run entry start = .ok result final) :
    EndsStale start.context.currentState final := by
  rcases @run_cases _ agent entry start with
    ⟨error, raised⟩ | ⟨effect, handler, same, kept, handles⟩
  · cases raised.symm.trans returns
  · have keeps := @held_runInvariant _ agent start.context.currentState
    have held := (kept keeps fun _ _ same => same).1
    rw [same, tryCatch_apply] at returns
    cases ran : (effect >>= agent.complete) start with
    | ok answer after =>
        rw [ran] at returns
        cases returns
        rcases bind_eq_ok.mp ran with ⟨reached, between, reaches, completes⟩
        rw [← held.returned rfl reaches]
        exact complete_stale completes
    | error error after =>
        rw [ran] at returns
        rw [← (held.bind keeps.complete).raised rfl ran]
        exact handles error after final result returns

/-- A run of a task that has ended leaves it as it is. -/
theorem run_terminal {entry : Entry} {result : AgentResult}
    (terminal : isTerminal start.task = true)
    (returns : agent.run entry start = .ok result final) : final.task = start.task :=
  (run_keeps (terminal_runInvariant terminal) (fun _ _ same => same) entry).returned rfl
    returns

/-! ## What the first saves leave -/

theorem transition_returned {target : TaskState} {answer : Unit}
    (returns : transition target start = .ok answer final) :
    isValidTransition start.task target = true ∧ final = { start with
      task := target
      saved := { start.saved with currentState := target } } := by
  cases valid : isValidTransition start.task target with
  | true =>
      have moved := returns.symm.trans (transition_ok valid)
      cases moved
      exact ⟨rfl, rfl⟩
  | false =>
      rcases transition_refused valid with ⟨error, refused⟩
      cases refused.symm.trans returns

/-- The understanding saves the state of the start over that of the task. -/
theorem understood_returned {goalText : String} {spec : TaskSpec}
    (returns : agent.understood goalText start = .ok spec final) :
    isTerminal start.task = false ∧ final.task ≠ start.task ∧
      final.saved.currentState = start.context.currentState := by
  have keeps := @held_runInvariant _ agent start.context.currentState
  rcases bind_eq_ok.mp returns with ⟨_, checked, checks, understands⟩
  rcases bind_eq_ok.mp understands with ⟨_, entered, enters, selecting⟩
  rcases bind_eq_ok.mp selecting with ⟨_, selected, selects, asking⟩
  rcases bind_eq_ok.mp asking with ⟨_, asked, asks, saving⟩
  rcases bind_eq_ok.mp saving with ⟨_, saved, saves, emitting⟩
  rcases bind_eq_ok.mp emitting with ⟨_, emitted, emits, last⟩
  rcases pure_eq_ok.mp last with ⟨_, rfl⟩
  have asksKeep : ∀ {invariant}, CallInvariant agent invariant → invariant selected →
      invariant asked := by
    intro invariant calls holds
    refine ((calls.perform _).tryCatch fun error => ?_).returned holds asks
    split
    · exact .throw _
    · exact .throw _
  have created : start.task = .created := by
    have waited := (@sameOrCancelled_callInvariant _ agent start.task).checkCancelled.returned
      (.inl rfl) checks
    have valid := (transition_returned enters).1
    rcases waited with same | cancelled
    · rw [same] at valid
      revert valid
      cases start.task <;> decide
    · rw [cancelled] at valid
      cases valid
  have moved : entered.task = .understanding := by
    rw [(transition_returned enters).2]
  have understanding : saved.task = .understanding ∨ saved.task = .cancelled := by
    have waits := @sameOrCancelled_callInvariant _ agent .understanding
    exact waits.save.returned
      (asksKeep waits ((waits.perform _).returned (.inl moved) selects)) saves
  have held : asked.context.currentState = start.context.currentState :=
    asksKeep keeps.toCallInvariant ((keeps.perform _).returned
      ((keeps.transition _).returned (keeps.checkCancelled.returned rfl checks) enters)
      selects)
  cases emits
  refine ⟨by rw [created]; rfl, ?_, ?_⟩
  · rw [created]
    rcases understanding with same | same <;> rw [same] <;> decide
  · rw [saved_of_save saves]
    exact held

/-- The executor saves the context it was given. -/
theorem executeGraph_saved {plan : Plan} {arguments : Arguments} {result : ExecutionResult}
    (returns : agent.executeGraph plan arguments start = .ok result final) :
    final.saved = final.context := by
  unfold executeGraph at returns
  cases factory : agent.executorFactory with
  | none =>
      simp only [factory] at returns
      cases returns
  | some factory' =>
      simp only [factory] at returns
      rcases bind_eq_ok.mp returns with ⟨_, _, _, building⟩
      rcases bind_eq_ok.mp building with ⟨_, _, _, running⟩
      rcases bind_eq_ok.mp running with ⟨_, _, _, persisting⟩
      rcases bind_eq_ok.mp persisting with ⟨_, persisted, persists, last⟩
      cases persists
      rw [state_of_ofExcept last]

theorem execute_saved {plan : Plan} {result : ExecutionResult}
    (returns : agent.execute plan start = .ok result final) :
    final.saved = final.context := by
  rcases bind_eq_ok.mp returns with ⟨_, between, _, observes⟩
  unfold observed at observes
  cases ran : agent.executeGraph plan agent.config.arguments between with
  | ok answer after =>
      rw [ran] at observes
      cases observes
      have same := executeGraph_saved ran
      exact same
  | error error after =>
      rw [ran] at observes
      cases observes

theorem resumed_holds (held : TaskState) :
    Preserves (fun state => state.context.currentState = held) agent.resumed := by
  refine .bind .get fun state => ?_
  cases state.context.plan with
  | none => exact .throw _
  | some plan =>
      exact ((@held_runInvariant _ agent held).phases.walkTo rfl).bind fun _ => .pure _

/-- A resumed execution saves the state of the start. -/
theorem resumedExecution_saved {result : ExecutionResult}
    (returns : (agent.resumed >>= agent.withoutToken.execute) start = .ok result final) :
    final.saved.currentState = start.context.currentState := by
  rcases bind_eq_ok.mp returns with ⟨plan, walked, resumes, executes⟩
  rw [execute_saved executes]
  exact ((held_runInvariant _).phases.execute (fun _ _ same => same) plan).returned
    ((resumed_holds _).returned rfl resumes) executes

/-- A task that has ended is not resumed. -/
theorem resumed_returned {plan : Plan}
    (returns : agent.resumed start = .ok plan final) : isTerminal start.task = false := by
  cases terminal : isTerminal start.task with
  | false => rfl
  | true =>
      rcases bind_eq_ok.mp returns with ⟨_, _, looks, walking⟩
      cases looks
      cases resumable : start.context.plan with
      | none =>
          simp only [resumable] at walking
          cases walking
      | some plan' =>
          simp only [resumable] at walking
          rcases bind_eq_ok.mp walking with ⟨_, _, walks, _⟩
          rcases bind_eq_ok.mp walks with ⟨_, _, reads, moves⟩
          cases reads
          have other : start.task ≠ .executing := by
            intro same
            rw [same] at terminal
            cases terminal
          have unlisted : walkPath start.task .executing = none := by
            revert terminal
            cases start.task <;> decide
          simp only [if_neg other, unlisted] at moves
          have valid := (transition_returned moves).1
          rw [isValidTransition_of_terminal terminal] at valid
          cases valid

/-! ## The phases of a resumed run -/

theorem contextAgrees_outside : OutsideInvariant agent ContextAgrees where
  outside state world agrees := by
    unfold interrupted
    split
    · rfl
    · exact agrees

/-- A move makes task and context agree. -/
theorem transition_agrees {target : TaskState} :
    Preserves ContextAgrees (transition target : AgentM World Unit) :=
  preserves_transition fun _ _ _ => rfl

theorem walkTo_agrees {target : TaskState} (goesOn : isTerminal target = false) :
    Preserves ContextAgrees (walkTo target : AgentM World Unit) :=
  walkTo_keeps (fun _ => transition_agrees) goesOn

theorem verify_agrees (plan : Plan) (execution : ExecutionResult) :
    Preserves ContextAgrees (agent.verify plan execution) :=
  (walkTo_agrees rfl).bind fun _ =>
    PhaseInvariant.observed (fun _ _ agrees => agrees)
      (contextAgrees_outside.verifySteps execution plan.steps)

/-- A recovery saves what it holds, and moves the task behind it. -/
theorem recoverIfNeeded_agrees {plan : Plan} {execution : ExecutionResult}
    {verifications : List (String × VerificationResult)} {recovery : Option RecoveryOutcome}
    (agrees : ContextAgrees start)
    (returns : agent.recoverIfNeeded plan execution verifications start =
      .ok recovery final) : ContextAgrees final := by
  unfold recoverIfNeeded at returns
  split at returns
  · cases returns
    exact agrees
  · rcases bind_eq_ok.mp returns with ⟨_, _, _, announcing⟩
    rcases bind_eq_ok.mp announcing with ⟨_, _, _, asking⟩
    rcases bind_eq_ok.mp asking with ⟨_, _, _, recovering⟩
    rcases bind_eq_ok.mp recovering with ⟨_, _, _, executing⟩
    rcases bind_eq_ok.mp executing with ⟨_, _, _, verifying⟩
    rcases bind_eq_ok.mp verifying with ⟨_, _, moves, last⟩
    rcases pure_eq_ok.mp last with ⟨_, rfl⟩
    rw [(transition_returned moves).2]
    rfl

/-! ## Task and context -/

/-- No phase of a run comes to its end before the first one that saves. -/
theorem understood_of_phase {goalText : String} {phase : AgentM World Unit}
    (member : phase ∈ agent.phases (.runTask goalText)) (returns : phase start = .ok () state) :
    ∃ spec between, agent.understood goalText start = .ok spec between := by
  have surveys : ∀ {spec state}, agent.surveyed goalText start = .ok spec state →
      ∃ spec between, agent.understood goalText start = .ok spec between :=
    fun returns => first_of_bind returns
  have researches : ∀ {text state}, agent.researched goalText start = .ok text state →
      ∃ spec between, agent.understood goalText start = .ok spec between := by
    intro text state returns
    rcases first_of_bind returns with ⟨spec, between, returns⟩
    exact surveys returns
  have recollects : ∀ {text state}, agent.recollected goalText start = .ok text state →
      ∃ spec between, agent.understood goalText start = .ok spec between := by
    intro text state returns
    rcases first_of_bind returns with ⟨text, between, returns⟩
    exact researches returns
  have prepares : ∀ {plan state}, agent.prepare goalText start = .ok plan state →
      ∃ spec between, agent.understood goalText start = .ok spec between := by
    intro plan state returns
    rw [prepare_eq] at returns
    rcases first_of_bind returns with ⟨text, between, returns⟩
    exact recollects returns
  have pursues : ∀ {answer : Type} {rest : Plan → AgentM World answer} {value state},
      (agent.prepare goalText >>= rest) start = .ok value state →
      ∃ spec between, agent.understood goalText start = .ok spec between := by
    intro answer rest value state returns
    rcases first_of_bind returns with ⟨plan, between, returns⟩
    exact prepares returns
  simp only [phases, pursuits, List.cons_append, List.nil_append, List.mem_cons,
    List.not_mem_nil, or_false] at member
  rcases member with rfl | rfl | rfl | rfl | rfl | rfl | rfl | rfl | rfl <;>
    rcases upTo_eq_ok.mp returns with ⟨value, returns⟩
  · exact ⟨value, state, returns⟩
  · exact surveys returns
  · exact researches returns
  · exact recollects returns
  · exact prepares returns
  all_goals exact pursues returns

theorem resumed_of_phase {phase : AgentM World Unit}
    (member : phase ∈ agent.phases .resume) (returns : phase start = .ok () state) :
    ∃ plan between, agent.resumed start = .ok plan between := by
  simp only [phases, pursuits, List.mem_cons, List.not_mem_nil, or_false] at member
  rcases member with rfl | rfl | rfl | rfl | rfl <;>
    rcases upTo_eq_ok.mp returns with ⟨value, returns⟩
  · exact ⟨value, state, returns⟩
  all_goals exact first_of_bind returns

/-- A resumed run agrees between its phases if it does behind its execution. -/
theorem resumed_agrees (agreed : ContextAgrees start)
    (executes : ∀ state, agent.firstSave .resume start = .ok () state → ContextAgrees state)
    {phase : AgentM World Unit} (member : phase ∈ agent.phases .resume)
    (returns : phase start = .ok () state) : ContextAgrees state := by
  have executed : ∀ {plan execution between state},
      agent.resumed start = .ok plan between →
      agent.withoutToken.execute plan between = .ok execution state →
      ContextAgrees state :=
    fun walks runs => executes _ (upTo_eq_ok.mpr ⟨_, bind_eq_ok.mpr ⟨_, _, walks, runs⟩⟩)
  have verifies : ∀ {plan between value state},
      agent.resumed start = .ok plan between →
      agent.withoutToken.verified plan between = .ok value state → ContextAgrees state := by
    intro plan between value state walks returns
    rcases bind_eq_ok.mp returns with ⟨execution, after, runs, checking⟩
    rcases bind_eq_ok.mp checking with ⟨_, checked, checks, verifying⟩
    rcases bind_eq_ok.mp verifying with ⟨verifications, behind, verified, last⟩
    rcases pure_eq_ok.mp last with ⟨_, rfl⟩
    exact (verify_agrees plan execution).returned
      (contextAgrees_outside.checkCancelled.returned (executed walks runs) checks) verified
  have recovers : ∀ {plan between value state},
      agent.resumed start = .ok plan between →
      agent.withoutToken.recovered plan between = .ok value state → ContextAgrees state := by
    intro plan between value state walks returns
    rcases bind_eq_ok.mp returns with ⟨⟨execution, verifications⟩, after, verified, recovering⟩
    rcases bind_eq_ok.mp recovering with ⟨recovery, behind, recovered, last⟩
    rcases pure_eq_ok.mp last with ⟨_, rfl⟩
    exact recoverIfNeeded_agrees (verifies walks verified) recovered
  simp only [phases, pursuits, List.mem_cons, List.not_mem_nil, or_false] at member
  rcases member with rfl | rfl | rfl | rfl | rfl <;>
    rcases upTo_eq_ok.mp returns with ⟨value, returns⟩
  · rcases bind_eq_ok.mp returns with ⟨_, _, looks, walking⟩
    cases looks
    cases resumable : start.context.plan with
    | none =>
        simp only [resumable] at walking
        cases walking
    | some plan =>
        simp only [resumable] at walking
        rcases bind_eq_ok.mp walking with ⟨_, _, walks, last⟩
        rcases pure_eq_ok.mp last with ⟨_, rfl⟩
        exact (walkTo_agrees rfl).returned agreed walks
  · rcases bind_eq_ok.mp returns with ⟨plan, between, walks, runs⟩
    exact executed walks runs
  · rcases bind_eq_ok.mp returns with ⟨plan, between, walks, runs⟩
    exact verifies walks runs
  · rcases bind_eq_ok.mp returns with ⟨plan, between, walks, runs⟩
    exact recovers walks runs
  · rcases bind_eq_ok.mp returns with ⟨plan, between, walks, runs⟩
    rw [pursue_eq] at runs
    rcases bind_eq_ok.mp runs with ⟨⟨execution, verifications, recovery⟩, after, recovered,
      storing⟩
    rcases bind_eq_ok.mp storing with ⟨_, _, stores, last⟩
    rcases pure_eq_ok.mp last with ⟨_, rfl⟩
    exact (contextAgrees_outside.perform _).returned (recovers walks recovered) stores

/-- The first phase that saves leaves the state of the start in the stored context, and a
task that has not ended starts it. -/
theorem firstSave_returned {entry : Entry}
    (returns : agent.firstSave entry start = .ok () state) :
    isTerminal start.task = false ∧
      state.saved.currentState = start.context.currentState := by
  cases entry with
  | runTask goalText =>
      rcases upTo_eq_ok.mp returns with ⟨spec, understands⟩
      have left := understood_returned understands
      exact ⟨left.1, left.2.2⟩
  | resume =>
      rcases upTo_eq_ok.mp returns with ⟨execution, executes⟩
      rcases first_of_bind executes with ⟨plan, between, walks⟩
      exact ⟨resumed_returned walks, resumedExecution_saved executes⟩

/-- Task and context agree throughout a run in exactly the runs that save nothing out of
date. -/
theorem agreesThroughout_iff (entry : Entry) (start : AgentState World)
    (loaded : Loaded start) :
    agent.AgreesThroughout entry start ↔ agent.SavesUpToDate entry start := by
  have held : start.context.currentState = start.task := by
    rw [loaded.read]
    exact loaded.agrees
  constructor
  · intro agrees
    cases terminal : isTerminal start.task with
    | true => exact .inl terminal
    | false =>
        refine .inr ⟨fun state saves => ?_, fun result final returns => ?_⟩
        · have listed : agent.firstSave entry ∈ agent.phases entry := by
            cases entry <;> simp [firstSave, phases, pursuits]
          rw [← agrees.between _ listed state saves, (firstSave_returned saves).2, held]
        · have stale := run_stale returns
          have same := agrees.behind result final returns
          rw [ContextAgrees, stale.1, held] at same
          have ends := stale.2
          rw [← same, terminal] at ends
          cases ends
  · intro upToDate
    constructor
    · intro phase member state returns
      cases entry with
      | runTask goalText =>
          rcases understood_of_phase member returns with ⟨spec, between, understands⟩
          have left := understood_returned understands
          rcases upToDate with terminal | ⟨unmoved, _⟩
          · rw [terminal] at left
            cases left.1
          · exact absurd (unmoved between (upTo_eq_ok.mpr ⟨spec, understands⟩)) left.2.1
      | resume =>
          rcases resumed_of_phase member returns with ⟨plan, between, walks⟩
          rcases upToDate with terminal | ⟨unmoved, _⟩
          · rw [resumed_returned walks] at terminal
            cases terminal
          · apply resumed_agrees loaded.agrees _ member returns
            intro state executes
            rw [ContextAgrees, (firstSave_returned executes).2, held, unmoved state executes]
    · intro result final returns
      rcases upToDate with terminal | ⟨_, raises⟩
      · rw [ContextAgrees, (run_stale returns).1, held, run_terminal terminal returns]
      · exact absurd returns (raises result final)

/-- A task that is stored as it stands, with its context. -/
def storedAs (task : TaskState) : AgentState Unit where
  world := ()
  task := task
  context := { currentState := task }
  saved := { currentState := task }

/-- A task that was cancelled before its run. -/
theorem agreesThroughout_iff_cancelled :
    (searchAgent .null).AgreesThroughout (.runTask "look it up") (storedAs .cancelled) :=
  (@agreesThroughout_iff _ (searchAgent .null) (.runTask "look it up")
    (storedAs .cancelled) ⟨rfl, rfl⟩).mpr (.inl rfl)

/-- The states of the stored context and of the task behind a part of a run. -/
def stored (ran : EStateM.Result Error (AgentState Unit) Unit) :
    Option (TaskState × TaskState) :=
  match ran with
  | .ok _ state => some (state.saved.currentState, state.task)
  | .error _ _ => none

/-- Behind the first phase of a new task the stored context has it as CREATED. -/
theorem newTask_disagrees :
    ¬ ∀ (agent : SingleAgent Unit) (entry : Entry) (start : AgentState Unit),
      Loaded start → agent.AgreesThroughout entry start := by
  intro agreesAlways
  have agrees := agreesAlways (searchAgent .null) (.runTask "look it up") (storedAs .created)
    ⟨rfl, rfl⟩
  have left : stored (upTo ((searchAgent .null).understood "look it up")
      (storedAs .created)) = some (.created, .understanding) := by decide +kernel
  cases ran : upTo ((searchAgent .null).understood "look it up") (storedAs .created) with
  | error error after =>
      rw [ran] at left
      cases left
  | ok _ state =>
      rw [ran] at left
      have same := agrees.between _ List.mem_cons_self state ran
      have pair := Prod.mk.inj (Option.some.inj left)
      rw [ContextAgrees, pair.1, pair.2] at same
      cases same

end SingleAgent

end Raphael.Agent.Orchestrator
