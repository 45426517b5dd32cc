import Raphael.Agent.Orchestrator.PhaseInvariant

/-! # Verified completion

When a run of the single agent ends with its task COMPLETED. The end of a run is computed
from the status of the first execution, the outcome of the recovery, and the last
verification of the recovery; these may be of different executions. -/

namespace Raphael.Agent.Orchestrator

open Core Foundation
open Agent.Executor Agent.Recovery
open Raphael.Runtime Tools

/-- A task moves inside a set of states, and nothing more has been observed. -/
def Within {World : Type} (allowed : TaskState → Prop) (trace : List Observation)
    (state : AgentState World) : Prop :=
  allowed state.task ∧ state.trace = trace

/-- The operator and a failing run leave no set of states that is closed. -/
structure Closed (allowed : TaskState → Prop) : Prop where
  cancels : ∀ task, allowed task → isTerminal task = false → allowed .cancelled
  fails : ∀ task, allowed task → isTerminal task = false → allowed .failed

/-- The task is not COMPLETED. -/
abbrev Incomplete (task : TaskState) : Prop := task ≠ .completed

abbrev Complete (task : TaskState) : Prop := task = .completed

theorem closed_incomplete : Closed Incomplete where
  cancels _ _ _ := by decide
  fails _ _ _ := by decide

theorem closed_complete : Closed Complete where
  cancels _ complete open_ := by
    cases complete
    cases open_
  fails _ complete open_ := by
    cases complete
    cases open_

/-- Only a task that is being verified may be completed. -/
theorem isValidTransition_completed {task : TaskState} :
    isValidTransition task .completed = true ↔ task = .verifying := by
  cases task <;> decide

namespace SingleAgent

variable {World : Type} {agent : SingleAgent World} {allowed : TaskState → Prop}
  {trace : List Observation}

/-! ## What the operations keep -/

/-- A set of states that the operator cannot leave survives every call of the outside. -/
theorem within_callInvariant (closed : Closed allowed) :
    CallInvariant agent (Within allowed trace) where
  outside state world within := by
    unfold interrupted
    split
    · next cancels =>
        simp only [Bool.and_eq_true, Bool.not_eq_true'] at cancels
        exact ⟨closed.cancels state.task within.1 cancels.2, within.2⟩
    · exact within
  context _ _ _ within := within
  saved _ _ within := within

/-- Until the completion, no move leads to COMPLETED. -/
theorem within_phaseInvariant : PhaseInvariant agent (Within Incomplete trace) where
  toCallInvariant := within_callInvariant closed_incomplete
  emits _ _ _ _ within := within
  moves _ target goesOn _ within := by
    refine ⟨?_, within.2⟩
    rintro rfl
    cases goesOn

theorem incomplete_phaseInvariant :
    PhaseInvariant agent fun state => Incomplete state.task where
  outside state world incomplete :=
    (@within_phaseInvariant _ agent state.trace).outside state world ⟨incomplete, rfl⟩ |>.1
  context _ _ _ incomplete := incomplete
  saved _ _ incomplete := incomplete
  emits _ _ _ _ incomplete := incomplete
  moves state target goesOn valid incomplete :=
    (@within_phaseInvariant _ agent state.trace).moves state target goesOn valid
      ⟨incomplete, rfl⟩ |>.1

theorem transition_keeps {target : TaskState} (reaches : allowed target) :
    Preserves (Within allowed trace) (transition target : AgentM World Unit) :=
  preserves_transition fun _ _ within => ⟨reaches, within.2⟩

theorem emit_keeps (eventType : EventType) (payload : List (String × Json)) :
    Preserves (Within allowed trace) (agent.emit eventType payload) :=
  .modify fun _ within => within

/-! ## Endings -/

/-- A task that is not terminal is moved to where the set of states goes. -/
theorem moveUnlessTerminal_keeps {target : TaskState}
    (reaches : ∀ task, allowed task → isTerminal task = false → allowed target)
    {answer : Type} (rest : AgentM World answer)
    (after : Preserves (Within allowed trace) rest) :
    Preserves (Within allowed trace) (do
      let current ← currentState
      if isTerminal current then pure () else transition target
      rest) := by
  intro state within
  unfold leaves
  rw [bind_apply]
  change Within allowed trace (leaves (do
    if isTerminal state.task then pure () else transition target
    rest) state)
  cases terminal : isTerminal state.task with
  | true => exact after state within
  | false =>
      have moved : Preserves (Within allowed trace) (transition target : AgentM World Unit) :=
        transition_keeps (reaches state.task within.1 terminal)
      exact moved.bind (fun _ => after) state within

section Endings

variable (closed : Closed allowed)
include closed

theorem cancelled_keeps (error : String) :
    Preserves (Within allowed trace) (agent.cancelled error) :=
  moveUnlessTerminal_keeps closed.cancels _
    ((within_callInvariant closed).save.bind fun _ => .pure _)

theorem fail_keeps (error : String) :
    Preserves (Within allowed trace) (agent.fail error) :=
  moveUnlessTerminal_keeps closed.fails _
    ((emit_keeps _ _).bind fun _ => (within_callInvariant closed).save.bind fun _ =>
      .pure _)

end Endings

/-! ## Execution, verification and recovery -/

/-- An action that is observed adds its observation. -/
theorem observed_returned {answer : Type}
    {observation : Except Error answer → Observation} {action : AgentM World answer}
    (keeps : Preserves (Within Incomplete trace) action) {state final : AgentState World}
    {value : answer} (within : Within Incomplete trace state)
    (returns : observed observation action state = .ok value final) :
    Within Incomplete (trace ++ [observation (.ok value)]) final := by
  unfold observed at returns
  cases ran : action state with
  | ok answer after =>
      rw [ran] at returns
      cases returns
      have kept := keeps.returned within ran
      exact ⟨kept.1, by rw [kept.2]⟩
  | error error after =>
      rw [ran] at returns
      cases returns

theorem execute_returned {plan : Plan} {state final : AgentState World}
    {execution : ExecutionResult} (within : Within Incomplete trace state)
    (returns : agent.execute plan state = .ok execution final) :
    Within Incomplete (trace ++ [.executed plan (.ok execution)]) final := by
  rcases bind_eq_ok.mp returns with ⟨_, between, walked, observed⟩
  exact observed_returned (within_phaseInvariant.executeGraph plan _)
    (((@within_phaseInvariant _ agent _).walkTo rfl).returned within walked) observed

theorem verify_returned {plan : Plan} {execution : ExecutionResult}
    {state final : AgentState World} {verifications : List (String × VerificationResult)}
    (within : Within Incomplete trace state)
    (returns : agent.verify plan execution state = .ok verifications final) :
    Within Incomplete
      (trace ++ [.verified plan execution (.ok (agent.overall verifications))]) final := by
  rcases bind_eq_ok.mp returns with ⟨_, between, walked, observed⟩
  exact observed_returned (within_phaseInvariant.verifySteps execution plan.steps)
    (((@within_phaseInvariant _ agent _).walkTo rfl).returned within walked) observed

/-- A recovery that returns has concluded, in a state that observes what it has observed. -/
theorem recover_eq_ok {planner : Option (RecoveryPlanner World)} {plan : Plan}
    {execution : ExecutionResult} {verification : VerificationResult}
    {state final : AgentState World} {outcome : RecoveryOutcome}
    (within : Within Incomplete trace state)
    (returns : agent.recover planner plan execution verification state =
      .ok outcome final) :
    ∃ loop, (agent.recoveryRun planner).conclude plan (some execution) (some verification)
        state = (.ok outcome, loop) ∧
      Incomplete final.task ∧ final.trace = trace ++ loop.trace := by
  have kept := RecoveryRun.conclude_keeps
    ((@within_phaseInvariant _ agent trace).recoveryRun planner)
    plan (some execution) (some verification) within
  unfold recover at returns
  generalize (agent.recoveryRun planner).conclude plan (some execution)
    (some verification) state = concluded at *
  rcases concluded with ⟨answer, loop⟩
  cases answer with
  | error error => cases returns
  | ok concluded =>
      cases returns
      exact ⟨loop, rfl, kept.1, congrArg (· ++ loop.trace) kept.2⟩

/-- The verdict of a recovery is that of the last execution and verification. -/
theorem recover_returned {planner : Option (RecoveryPlanner World)} {plan : Plan}
    {execution : ExecutionResult} {verification : VerificationResult}
    {state final : AgentState World} {outcome : RecoveryOutcome}
    (within : Within Incomplete trace state)
    (last : lastCycle none trace = some (execution, some verification))
    (returns : agent.recover planner plan execution verification state =
      .ok outcome final) :
    outcome.status = .recovered ↔ Passed (lastCycle none final.trace) := by
  rcases recover_eq_ok within returns with ⟨loop, concludes, _, observed⟩
  have verdict := (agent.recoveryRun planner).conclude_verdict plan (some execution)
    (some verification) state
  rw [concludes] at verdict
  have joins : lastCycle none (trace ++ loop.trace) =
      lastCycle (some (execution, some verification)) loop.trace := by
    rw [← last]
    exact List.foldl_append
  rw [observed, joins]
  exact (verdict.reported outcome rfl).2.2

/-! ## What is reached -/

/-- Without a recovery the first execution and its verification are the last; with one
the verifications are what is left of it, and its outcome is that of the last. -/
structure Settles (agent : SingleAgent World) (reached : Reached)
    (trace : List Observation) : Prop where
  unrecovered : reached.recovery = none → lastCycle none trace =
    some (reached.execution, some (agent.overall reached.verifications))
  reverified : ∀ outcome, reached.recovery = some outcome →
    reached.verifications = reverify outcome
  judged : ∀ outcome, reached.recovery = some outcome →
    (outcome.status = .recovered ↔ Passed (lastCycle none trace))

/-- What a pursuit has observed before it recovers. -/
def firstAttempt (agent : SingleAgent World) (plan : Plan) (execution : ExecutionResult)
    (verifications : List (String × VerificationResult)) : List Observation :=
  [.executed plan (.ok execution),
    .verified plan execution (.ok (agent.overall verifications))]

/-- A pursuit that returns has not recovered, or has recovered from its first attempt. -/
theorem pursue_cases {plan : Plan} {state final : AgentState World} {reached : Reached}
    (within : Within Incomplete [] state)
    (returns : agent.pursue plan state = .ok reached final) :
    reached.plan = plan ∧ ∃ verifications,
      (reached.recovery = none ∧ reached.verifications = verifications ∧
        final.trace = agent.firstAttempt plan reached.execution verifications) ∨
      ∃ outcome planner asked ended, reached.recovery = some outcome ∧
        reached.verifications = reverify outcome ∧
        Within Incomplete (agent.firstAttempt plan reached.execution verifications) asked ∧
        agent.recover planner plan reached.execution (agent.overall verifications) asked =
          .ok outcome ended ∧
        final.trace = ended.trace := by
  rcases bind_eq_ok.mp returns with ⟨execution, first, executed, afterExecution⟩
  rcases bind_eq_ok.mp afterExecution with ⟨_, second, checked, afterCheck⟩
  rcases bind_eq_ok.mp afterCheck with ⟨verifications, third, verified, afterVerify⟩
  rcases bind_eq_ok.mp afterVerify with ⟨recovery, fourth, recovered, afterRecovery⟩
  rcases bind_eq_ok.mp afterRecovery with ⟨memoryIds, fifth, stored, last⟩
  rcases pure_eq_ok.mp last with ⟨rfl, rfl⟩
  have firstWithin := execute_returned within executed
  have secondWithin := within_phaseInvariant.checkCancelled.returned firstWithin checked
  have thirdWithin : Within Incomplete (agent.firstAttempt plan execution verifications) third :=
    verify_returned secondWithin verified
  have kept : ∀ {trace}, Within Incomplete trace fourth → fifth.trace = trace :=
    fun within => ((within_phaseInvariant.perform _).returned within stored).2
  refine ⟨rfl, verifications, ?_⟩
  unfold recoverIfNeeded at recovered
  split at recovered
  · cases recovered
    exact .inl ⟨rfl, rfl, kept thirdWithin⟩
  · rcases bind_eq_ok.mp recovered with ⟨_, entered, entering, afterEntering⟩
    rcases bind_eq_ok.mp afterEntering with ⟨_, announced, announcing, afterAnnouncing⟩
    rcases bind_eq_ok.mp afterAnnouncing with ⟨planner, asked, asking, afterAsking⟩
    rcases bind_eq_ok.mp afterAsking with ⟨outcome, ended, recovering, afterRecovering⟩
    rcases bind_eq_ok.mp afterRecovering with ⟨_, executing, toExecuting, afterExecuting⟩
    rcases bind_eq_ok.mp afterExecuting with ⟨_, verifying, toVerifying, last⟩
    cases last
    have enteredWithin := (transition_keeps (by decide)).returned thirdWithin entering
    have announcedWithin := (emit_keeps _ _).returned enteredWithin announcing
    have askedWithin := within_phaseInvariant.recoveryPlanner.returned announcedWithin asking
    rcases recover_eq_ok askedWithin recovering with ⟨_, _, incomplete, _⟩
    have endedWithin : Within Incomplete ended.trace ended := ⟨incomplete, rfl⟩
    have executingWithin := (transition_keeps (by decide)).returned endedWithin toExecuting
    have verifyingWithin := (transition_keeps (by decide)).returned executingWithin toVerifying
    exact .inr ⟨outcome, planner, asked, ended, rfl, rfl, askedWithin, recovering,
      kept verifyingWithin⟩

theorem pursue_returned {plan : Plan} {state final : AgentState World} {reached : Reached}
    (within : Within Incomplete [] state)
    (returns : agent.pursue plan state = .ok reached final) :
    Settles agent reached final.trace := by
  rcases pursue_cases within returns with ⟨_, verifications,
    ⟨unrecovered, rfl, trace⟩ | ⟨outcome, planner, asked, ended, recovery, reverified,
      asking, recovers, trace⟩⟩
  · have absent : ∀ outcome, reached.recovery ≠ some outcome := by
      intro outcome recovery
      cases unrecovered.symm.trans recovery
    refine ⟨fun _ => ?_, fun outcome recovery => absurd recovery (absent outcome),
      fun outcome recovery => absurd recovery (absent outcome)⟩
    rw [trace]
    rfl
  · constructor
    · intro unrecovered
      cases unrecovered.symm.trans recovery
    · intro other same
      cases recovery.symm.trans same
      exact reverified
    · intro other same
      cases recovery.symm.trans same
      rw [trace]
      exact recover_returned asking rfl recovers

/-! ## The completion -/

/-- The conditions under which `_complete` moves the task to COMPLETED. -/
def Concludes (agent : SingleAgent World) (reached : Reached) : Prop :=
  (reached.execution.status = .completed ∧
    (agent.overall reached.verifications).status = .passed) ∨
  ∃ outcome, reached.recovery = some outcome ∧ outcome.status = .recovered

theorem conclusion_target (reached : Reached) (verification : VerificationResult) :
    (conclusion reached verification).2.1 = .completed ↔
      (reached.execution.status = .completed ∧ verification.status = .passed) ∨
        ∃ outcome, reached.recovery = some outcome ∧ outcome.status = .recovered := by
  have recovered : reached.recovery.any (·.status == .recovered) = true ↔
      ∃ outcome, reached.recovery = some outcome ∧ outcome.status = .recovered := by
    simp [Option.any_eq_true]
  unfold conclusion
  dsimp only
  rw [← recovered]
  split
  · next passed => simp [passed]
  · next failed =>
      split
      · next again => simp [again]
      · next notAgain =>
          split <;> simp [failed, notAgain]

variable {handler : Error → AgentM World AgentResult} {reached : Reached}
  {state : AgentState World}

/-- What is left of a completion behind its look at the task. -/
theorem leaves_complete (running : state.task ≠ .cancelled) :
    leaves (tryCatch (agent.complete reached) handler) state =
      leaves (tryCatch (do
        transition (conclusion reached (agent.overall reached.verifications)).2.1
        agent.emit (conclusion reached (agent.overall reached.verifications)).2.2.1
          (conclusion reached (agent.overall reached.verifications)).2.2.2
        agent.report reached (agent.overall reached.verifications)
          (conclusion reached (agent.overall reached.verifications)).1) handler) state := by
  have looks : currentState state = .ok state.task state := rfl
  unfold complete
  rw [leaves_tryCatch_of_ok looks, if_neg running]

/-- A task that is being verified is completed, whatever is raised afterwards. -/
theorem complete_completes (handled : ∀ error, Preserves (Within Complete trace) (handler error))
    (within : state.trace = trace) (verifying : state.task = .verifying)
    (concludes : Concludes agent reached) :
    Within Complete trace (leaves (tryCatch (agent.complete reached) handler) state) := by
  have target := (conclusion_target reached (agent.overall reached.verifications)).mpr concludes
  have valid : isValidTransition state.task
      (conclusion reached (agent.overall reached.verifications)).2.1 = true := by
    rw [target]
    exact isValidTransition_completed.mpr verifying
  rw [leaves_complete (by simp [verifying]), leaves_tryCatch_of_ok (transition_ok valid)]
  apply Preserves.tryCatch _ handled
  · exact ⟨target, within⟩
  · exact (emit_keeps _ _).bind fun _ => (within_callInvariant closed_complete).report _ _ _

/-- Otherwise the task stays incomplete. -/
theorem complete_otherwise
    (handled : ∀ error, Preserves (Within Incomplete trace) (handler error))
    (within : Within Incomplete trace state)
    (otherwise : ¬ (state.task = .verifying ∧ Concludes agent reached)) :
    Within Incomplete trace (leaves (tryCatch (agent.complete reached) handler) state) := by
  by_cases cancelled : state.task = .cancelled
  · have looks : currentState state = .ok state.task state := rfl
    unfold complete
    rw [leaves_tryCatch_of_ok looks, if_pos cancelled]
    exact (cancelled_keeps closed_incomplete _).tryCatch handled state within
  · rw [leaves_complete cancelled]
    by_cases concludes : Concludes agent reached
    · have target :=
        (conclusion_target reached (agent.overall reached.verifications)).mpr concludes
      have invalid : isValidTransition state.task
          (conclusion reached (agent.overall reached.verifications)).2.1 = false := by
        rw [target, ← Bool.not_eq_true, isValidTransition_completed]
        exact fun verifying => otherwise ⟨verifying, concludes⟩
      rcases transition_refused invalid with ⟨error, refused⟩
      rw [leaves_tryCatch_of_error refused]
      exact handled error state within
    · have target : Incomplete
          (conclusion reached (agent.overall reached.verifications)).2.1 :=
        fun completed => concludes ((conclusion_target _ _).mp completed)
      apply Preserves.tryCatch _ handled
      · exact within
      · exact (transition_keeps target).bind fun _ => (emit_keeps _ _).bind fun _ =>
          within_phaseInvariant.report _ _ _

/-! ## Whole runs -/

/-- How a run is asked for. -/
inductive Entry
  | runTask (goalText : String)
  | resume

def run (agent : SingleAgent World) : Entry → AgentM World AgentResult
  | .runTask goalText => agent.runTask goalText
  | .resume => agent.resume

/-- Resuming a plan, up to the completion. -/
def pursueAgain (agent : SingleAgent World) (plan : Plan) : AgentM World Reached := do
  walkTo .executing
  agent.withoutToken.pursue plan

/-- A run, up to its completion. -/
def reach (agent : SingleAgent World) : Entry → AgentM World Reached
  | .runTask goalText => agent.prepare goalText >>= agent.pursue
  | .resume => do
      match (← get).context.plan with
      | none => throw agent.noPlan
      | some plan => agent.pursueAgain plan

theorem handle_keeps (closed : Closed allowed) (error : Error) :
    Preserves (Within allowed trace) (agent.handle error) := by
  unfold handle
  split
  · exact cancelled_keeps closed _
  · apply (within_callInvariant closed).tokenCancelled.bind
    intro cancelled
    split
    · exact cancelled_keeps closed _
    · exact fail_keeps closed _

/-- A program that comes to its completion, under a handler that keeps closed sets. -/
theorem leaves_of_reached {effect : AgentM World Reached} {between : AgentState World}
    (handled : ∀ {allowed}, Closed allowed → ∀ trace error,
      Preserves (Within allowed trace) (handler error))
    (reaches : effect state = .ok reached between) (incomplete : Incomplete between.task) :
    (leaves (tryCatch (effect >>= agent.complete) handler) state).trace = between.trace ∧
      ((leaves (tryCatch (effect >>= agent.complete) handler) state).task = .completed ↔
        between.task = .verifying ∧ Concludes agent reached) := by
  rw [leaves_tryCatch_of_ok reaches]
  by_cases concludes : between.task = .verifying ∧ Concludes agent reached
  · have completed := complete_completes (handled closed_complete between.trace) rfl
      concludes.1 concludes.2
    exact ⟨completed.2, fun _ => concludes, fun _ => completed.1⟩
  · have stays := complete_otherwise (handled closed_incomplete between.trace)
      ⟨incomplete, rfl⟩ concludes
    exact ⟨stays.2, fun completed => absurd completed stays.1,
      fun now => absurd now concludes⟩

/-- A program that raises before its completion. -/
theorem leaves_of_raised {effect : AgentM World Reached} {between : AgentState World}
    {error : Error}
    (handled : ∀ {allowed}, Closed allowed → ∀ trace error,
      Preserves (Within allowed trace) (handler error))
    (raises : effect state = .error error between) (incomplete : Incomplete between.task) :
    Incomplete (leaves (tryCatch (effect >>= agent.complete) handler) state).task := by
  rw [leaves_tryCatch_of_error raises]
  exact (handled closed_incomplete between.trace error between ⟨incomplete, rfl⟩).1

/-- What is left of a run whose reach comes to its completion, or raises. -/
theorem leaves_run (entry : Entry) (state : AgentState World) :
    (∃ error, agent.run entry state = .error error state ∧
      agent.reach entry state = .error error state) ∨
    ∃ effect handler, agent.reach entry state = effect state ∧
      leaves (agent.run entry) state =
        leaves (tryCatch (effect >>= agent.complete) handler) state ∧
      ∀ {allowed}, Closed allowed → ∀ trace error,
        Preserves (Within allowed trace) (handler error) := by
  have gets : (get : AgentM World (AgentState World)) state = .ok state state := rfl
  cases entry with
  | runTask goalText =>
      refine .inr ⟨agent.prepare goalText >>= agent.pursue, agent.handle, rfl, ?_,
        fun closed _ => handle_keeps closed⟩
      rw [bind_assoc]
      rfl
  | resume =>
      cases resumable : state.context.plan with
      | none =>
          refine .inl ⟨agent.noPlan, ?_, ?_⟩
          · change agent.resume state = _
            unfold resume
            rw [bind_apply, gets]
            simp only [resumable]
            rfl
          · change (get >>= _ : AgentM World Reached) state = _
            rw [bind_apply, gets]
            simp only [resumable]
            rfl
      | some plan =>
          refine .inr ⟨agent.pursueAgain plan,
            fun error => agent.fail (agent.sanitizeException error), ?_, ?_,
            fun closed _ _ => fail_keeps closed _⟩
          · change (get >>= _ : AgentM World Reached) state = _
            rw [bind_apply, gets]
            simp only [resumable]
          · change leaves agent.resume state = _
            unfold leaves resume pursueAgain
            rw [bind_apply, gets, bind_assoc]
            simp only [resumable]

theorem reach_incomplete (entry : Entry) :
    Preserves (fun state => Incomplete state.task) (agent.reach entry) := by
  cases entry with
  | runTask goalText =>
      exact (incomplete_phaseInvariant.prepare goalText).bind
        (incomplete_phaseInvariant.pursue fun _ _ incomplete => incomplete)
  | resume =>
      unfold reach
      refine .bind .get fun state => ?_
      cases state.context.plan with
      | none => exact .throw _
      | some plan =>
          apply ((@incomplete_phaseInvariant _ agent).walkTo rfl).bind
          intro _
          exact incomplete_phaseInvariant.pursue (fun _ _ incomplete => incomplete) plan

/-- What a run reaches is settled by what it has observed. -/
theorem reach_settles {entry : Entry} {between : AgentState World}
    (within : Within Incomplete [] state)
    (reaches : agent.reach entry state = .ok reached between) :
    Settles agent reached between.trace := by
  cases entry with
  | runTask goalText =>
      rcases bind_eq_ok.mp reaches with ⟨plan, planned, prepared, pursued⟩
      exact pursue_returned
        ((within_phaseInvariant.prepare goalText).returned within prepared) pursued
  | resume =>
      rcases bind_eq_ok.mp reaches with ⟨_, same, gets, resumed⟩
      cases gets
      cases resumable : state.context.plan with
      | none =>
          simp only [resumable] at resumed
          cases resumed
      | some plan =>
          simp only [resumable] at resumed
          rcases bind_eq_ok.mp resumed with ⟨_, executing, walked, pursued⟩
          have settled := pursue_returned
            (((@within_phaseInvariant _ agent _).walkTo rfl).returned within walked) pursued
          exact ⟨settled.unrecovered, settled.reverified, settled.judged⟩

/-- A run that comes to its completion ends with the task COMPLETED exactly if the task is
still being verified and what is reached concludes so; every other run ends otherwise. -/
theorem run_ends (entry : Entry) (incomplete : Incomplete state.task) :
    (∃ reached between, agent.reach entry state = .ok reached between ∧
      (leaves (agent.run entry) state).trace = between.trace ∧
      ((leaves (agent.run entry) state).task = .completed ↔
        between.task = .verifying ∧ Concludes agent reached)) ∨
    ∃ error between, agent.reach entry state = .error error between ∧
      Incomplete (leaves (agent.run entry) state).task := by
  rcases @leaves_run _ agent entry state with
    ⟨error, ran, raised⟩ | ⟨effect, handler, same, ends, handled⟩
  · refine .inr ⟨error, state, raised, ?_⟩
    rw [leaves, ran]
    exact incomplete
  · rw [same, ends]
    cases reaches : effect state with
    | ok reached between =>
        have after := (reach_incomplete entry).returned incomplete (same.trans reaches)
        exact .inl ⟨reached, between, rfl, leaves_of_reached handled reaches after⟩
    | error error between =>
        have after := (reach_incomplete entry).raised incomplete (same.trans reaches)
        exact .inr ⟨error, between, rfl, leaves_of_raised handled reaches after⟩

/-- The verification that is left of a recovery, as the completion reads it. -/
theorem overall_reverify (outcome : RecoveryOutcome) :
    (agent.overall (reverify outcome)).status = .passed ↔
      ∃ verification, outcome.finalVerification = some verification ∧
        verification.status = .passed := by
  unfold reverify overall worst
  cases outcome.finalVerification with
  | none => simp
  | some verification => simp

end SingleAgent

/-! ## Verified completion -/

/-- One run of an agent over a task that is not COMPLETED yet. -/
structure AgentRun (World : Type) where
  agent : SingleAgent World
  entry : SingleAgent.Entry
  world : World
  task : TaskState
  incomplete : Incomplete task
  context : ExecutionContext := {}
  saved : ExecutionContext := {}

namespace AgentRun

variable {World : Type} (run : AgentRun World)

def start : AgentState World where
  world := run.world
  task := run.task
  context := run.context
  saved := run.saved

/-- The state behind the whole run. -/
def final : AgentState World := leaves (run.agent.run run.entry) run.start

/-- The run has come to `_complete`, with what it has reached. -/
def Reaches (reached : Reached) (state : AgentState World) : Prop :=
  run.agent.reach run.entry run.start = .ok reached state

/-- A task that ends COMPLETED has a last execution that is COMPLETED and whose own
verification PASSED; no run whose recovery ended otherwise than RECOVERED completes it. -/
def VerifiedCompletion : Prop :=
  (run.final.task = .completed → Passed (lastCycle none run.final.trace)) ∧
  ∀ reached state outcome, run.Reaches reached state → reached.recovery = some outcome →
    outcome.status ≠ .recovered → run.final.task ≠ .completed

/-- At `_complete` the first execution is COMPLETED and the verification that is left of
the recovery is PASSED, though the recovery did not end RECOVERED. -/
def CompletesStale : Prop :=
  ∃ reached state outcome verification, run.Reaches reached state ∧
    state.task = .verifying ∧ reached.execution.status = .completed ∧
    reached.recovery = some outcome ∧ outcome.status ≠ .recovered ∧
    outcome.finalVerification = some verification ∧ verification.status = .passed

/-- Completion is verified in exactly the runs that do not mix the status of the first
execution with the verification of another one. -/
theorem verifiedCompletion_iff : run.VerifiedCompletion ↔ ¬ run.CompletesStale := by
  have ends := @SingleAgent.run_ends _ run.agent run.start run.entry run.incomplete
  constructor
  · rintro verified ⟨reached, state, outcome, verification, reaches, verifying, executed,
      recovery, unrecovered, last, passed⟩
    apply verified.2 reached state outcome reaches recovery unrecovered
    rcases ends with ⟨reached', state', reaches', _, completes⟩ | ⟨_, _, raises, _⟩
    · cases reaches.symm.trans reaches'
      refine completes.mpr ⟨verifying, .inl ⟨executed, ?_⟩⟩
      have settled := SingleAgent.reach_settles ⟨run.incomplete, rfl⟩ reaches
      rw [settled.reverified outcome recovery, SingleAgent.overall_reverify]
      exact ⟨verification, last, passed⟩
    · cases reaches.symm.trans raises
  · intro fresh
    rcases ends with ⟨reached, state, reaches, sameTrace, completes⟩ | ⟨_, _, raises, open_⟩
    · have settled := SingleAgent.reach_settles ⟨run.incomplete, rfl⟩ reaches
      -- Only a recovery that ended RECOVERED is completed.
      have recovers : run.final.task = .completed → ∀ outcome,
          reached.recovery = some outcome → outcome.status = .recovered := by
        intro completed outcome recovery
        rcases completes.mp completed with ⟨verifying, ⟨executed, passed⟩ | ⟨other, same, was⟩⟩
        · by_contra unrecovered
          rw [settled.reverified outcome recovery, SingleAgent.overall_reverify] at passed
          rcases passed with ⟨verification, last, passed⟩
          exact fresh ⟨reached, state, outcome, verification, reaches, verifying, executed,
            recovery, unrecovered, last, passed⟩
        · cases recovery.symm.trans same
          exact was
      constructor
      · intro completed
        change Passed (lastCycle none (leaves (run.agent.run run.entry) run.start).trace)
        rw [sameTrace]
        cases recovery : reached.recovery with
        | some outcome =>
            exact (settled.judged outcome recovery).mp (recovers completed outcome recovery)
        | none =>
            rcases completes.mp completed with ⟨_, ⟨executed, passed⟩ | ⟨other, same, _⟩⟩
            · exact ⟨_, _, settled.unrecovered recovery, executed, passed⟩
            · cases recovery.symm.trans same
      · intro other between outcome reaches' recovery unrecovered completed
        cases reaches.symm.trans reaches'
        exact unrecovered (recovers completed outcome recovery)
    · refine ⟨fun completed => absurd completed open_, ?_⟩
      intro reached state outcome reaches
      cases reaches.symm.trans raises

/-! A run that completes over a stale execution. -/

/-- A plan of one step that writes a note. -/
def notePlan (id stepId : String) : Plan where
  id := id
  goal := "write a note"
  steps := [{
    id := stepId
    description := "write the note"
    tools := ["notes.append"]
    verification := "the note is there"
    completionCriteria := "the note is there" }]
  finalVerification := "the note is there"

def noteRegistry : ToolRegistry where
  entries := [{ tool := { name := "notes.append" }, handler := fun _ => .result {} }]

/-- The first execution succeeds, the later ones are denied their tool. -/
def noteExecutor : GraphExecutor Nat := fun taskId graph _ executions =>
  let executed : ExecutionResult :=
    if executions = 0 then {
      taskId, status := .completed
      states := graph.ids.map fun id => (id, .succeeded)
      succeeded := graph.ids
      results := graph.ids.map fun id => (id, [{ taskId, success := true }]) }
    else {
      taskId, status := .failed
      states := graph.ids.map fun id => (id, .failed)
      failed := graph.ids
      results := graph.ids.map fun id => (id, [{ taskId, error := some "denied: not now" }]) }
  ((.ok executed, []), executions + 1)

/-- The note is not there behind the first execution, and is there behind the second. -/
def noteVerifier (taskId stepId : String) (executions : Nat) :
    Except Error VerificationResult × Nat :=
  (.ok { taskId, stepId, status := if executions = 1 then .failed else .passed }, executions)

def noteAgent : SingleAgent Nat where
  taskId := "task"
  registry := noteRegistry
  requestSpec := fun _ executions => (.ok {}, executions)
  planner := fun _ _ _ executions => (.ok (notePlan "plan-1" "s1"), executions)
  executorFactory := some fun executions => (.ok noteExecutor, executions)
  verifier := fun taskId stepId _ _ _ => noteVerifier taskId stepId
  recoveryPlannerFactory := some fun executions =>
    (.ok {
      registry := noteRegistry
      replanProvider := some fun _ _ _ executions =>
        (.ok (notePlan "plan-2" "s2"), executions) }, executions)
  recoveryExternals := {
    platform := {
      lower := id
      basename := id
      isAbsolute := fun _ => false
      isBelow := fun _ _ => true }
    identity := {
      modelDumpJson := fun plan => ((plan.get? "id").map Json.text).getD ""
      sha256 := id } }

def noteRun : AgentRun Nat where
  agent := noteAgent
  entry := .runTask "write a note"
  world := 0
  task := .created
  incomplete := by decide

/-- The execution of the replacement plan is denied its tool and the recovery escalates,
but the note is there, and the first execution was COMPLETED. -/
theorem noteRun_not_verifiedCompletion : ¬ noteRun.VerifiedCompletion := by
  have completed : noteRun.final.task = .completed := by decide +kernel
  have denied : (lastCycle none noteRun.final.trace).map (·.1.status) = some .failed := by
    decide +kernel
  intro verified
  rcases verified.1 completed with ⟨result, verification, last, executed, _⟩
  rw [last] at denied
  cases executed.symm.trans (Option.some.inj denied)

end AgentRun

end Raphael.Agent.Orchestrator
