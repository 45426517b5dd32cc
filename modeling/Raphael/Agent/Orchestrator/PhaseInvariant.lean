import Raphael.Agent.Orchestrator.SingleAgent

/-! # Invariants of the phases

What every phase of a run keeps, from the little that a phase does to the state: it calls
the outside, writes the context, publishes events that do not end the task, and moves the
task to states that are not terminal. -/

namespace Raphael.Agent.Orchestrator

open Core Foundation
open Agent.Executor Agent.Recovery
open Raphael.Runtime Tools

variable {World : Type}

/-- The events that a task ends with. -/
def endsTask (eventType : EventType) : Bool :=
  eventType == .taskCompleted || eventType == .taskFailed

/-- A plan is published by the number of its steps. -/
def CountsPlan (event : Event) : Prop :=
  event.eventType = .planCreated →
    ∃ count : Nat, Json.lookup "steps" event.payload = some (.int count)

/-- The invariant survives the calls of the outside. -/
structure OutsideInvariant (agent : SingleAgent World)
    (invariant : AgentState World → Prop) : Prop where
  outside : ∀ state world, invariant state →
    invariant (agent.interrupted { state with world })

/-- The invariant survives the writes of the context as well. -/
structure CallInvariant (agent : SingleAgent World) (invariant : AgentState World → Prop) :
    Prop extends OutsideInvariant agent invariant where
  context : ∀ state context, context.currentState = state.context.currentState →
    invariant state → invariant { state with context }
  saved : ∀ state saved, invariant state → invariant { state with saved }

/-- The invariant survives what a phase does before the task ends. -/
structure PhaseInvariant (agent : SingleAgent World) (invariant : AgentState World → Prop) :
    Prop extends CallInvariant agent invariant where
  emits : ∀ state event, endsTask event.eventType = false → CountsPlan event →
    invariant state →
    invariant { state with events := state.events ++ [event] }
  moves : ∀ state target, isTerminal target = false →
    isValidTransition state.task target = true → invariant state →
    invariant { state with task := target }

/-- The invariant survives whatever a run does. -/
structure RunInvariant (agent : SingleAgent World) (invariant : AgentState World → Prop) :
    Prop extends CallInvariant agent invariant where
  emits : ∀ state event, CountsPlan event → invariant state →
    invariant { state with events := state.events ++ [event] }
  moves : ∀ state target, isValidTransition state.task target = true → invariant state →
    invariant { state with task := target }

/-- No path leads through a terminal state to one that is not. -/
theorem open_of_walkPath {current target : TaskState} {path : List TaskState}
    (walked : walkPath current target = some path) :
    ∀ state ∈ path, isTerminal state = false := by
  have listed : ∀ path, listedPath current target = some path →
      ∀ state ∈ path, isTerminal state = false := by
    intro path found
    unfold listedPath at found
    split at found <;> cases found <;> decide
  have forward : ∀ state ∈ forwardStates, isTerminal state = false := by decide
  unfold walkPath at walked
  split at walked
  · next found =>
      cases walked
      exact listed path found
  · dsimp only at walked
    split at walked
    · split at walked
      · cases walked
        intro state member
        exact forward state (List.mem_of_mem_take (List.mem_of_mem_drop member))
      · cases walked
    · cases walked

namespace SingleAgent

variable {agent : SingleAgent World}

theorem transition_ok {state : AgentState World} {target : TaskState}
    (valid : isValidTransition state.task target = true) :
    transition target state = .ok () { state with
      task := target
      saved := { state.saved with currentState := target } } := by
  have legal := assertTransition_eq_ok.mpr valid
  have got : (get : AgentM World (AgentState World)) state = .ok state state := rfl
  unfold transition
  simp only [bind_apply, got, legal]
  rfl

/-- A refused transition leaves everything as it is. -/
theorem transition_refused {state : AgentState World} {target : TaskState}
    (invalid : isValidTransition state.task target = false) :
    ∃ error, transition target state = .error error state := by
  have got : (get : AgentM World (AgentState World)) state = .ok state state := rfl
  unfold transition
  simp only [bind_apply, got, assertTransition, invalid, Bool.false_eq_true, if_false]
  exact ⟨_, rfl⟩

/-- A move keeps what it keeps where it is legal. -/
theorem preserves_transition {invariant : AgentState World → Prop} {target : TaskState}
    (moves : ∀ state : AgentState World, isValidTransition state.task target = true →
      invariant state → invariant { state with
        task := target
        saved := { state.saved with currentState := target } }) :
    Preserves invariant (transition target : AgentM World Unit) := by
  intro state holds
  unfold leaves
  cases valid : isValidTransition state.task target with
  | true =>
      rw [transition_ok valid]
      exact moves state valid holds
  | false =>
      rcases transition_refused valid with ⟨error, refused⟩
      rw [refused]
      exact holds

theorem currentState_keeps (invariant : AgentState World → Prop) :
    Preserves invariant (currentState : AgentM World TaskState) :=
  Preserves.get.bind fun _ => .pure _

/-- A walk keeps what each of its moves keeps. -/
theorem walkTo_keeps {invariant : AgentState World → Prop}
    (moves : ∀ {state}, isTerminal state = false →
      Preserves invariant (transition state : AgentM World Unit))
    {target : TaskState} (goesOn : isTerminal target = false) :
    Preserves invariant (walkTo target : AgentM World Unit) := by
  apply (currentState_keeps invariant).bind
  intro current
  split
  · exact .pure _
  · split
    · exact moves goesOn
    · next path walked =>
        exact .forM fun state member => moves (open_of_walkPath walked state member)

end SingleAgent

/-! ## Calls of the outside -/

namespace OutsideInvariant

open SingleAgent

variable {agent : SingleAgent World} {invariant : AgentState World → Prop}
  (keeps : OutsideInvariant agent invariant)
include keeps

theorem observe {answer : Type} (call : World → answer × World) :
    Preserves invariant (agent.observe call) :=
  fun state holds => keeps.outside state _ holds

theorem perform {answer : Type} (call : Outside World answer) :
    Preserves invariant (agent.perform call) :=
  (keeps.observe call).bind fun _ => .ofExcept _

theorem tokenCancelled : Preserves invariant agent.tokenCancelled := by
  unfold SingleAgent.tokenCancelled
  split
  · exact .pure _
  · exact keeps.observe _

theorem checkCancelled : Preserves invariant agent.checkCancelled := by
  apply keeps.tokenCancelled.bind
  intro cancelled
  split
  · exact .throw _
  · exact .pure _

theorem searchQuery (goalText : String) (spec : TaskSpec) :
    Preserves invariant (agent.searchQuery goalText spec) := by
  unfold SingleAgent.searchQuery
  split
  · exact keeps.perform _
  · exact .pure _

theorem formQuery (goalText : String) (step : PlanStep) :
    Preserves invariant (agent.formQuery goalText step) := by
  unfold SingleAgent.formQuery
  split
  · exact (keeps.perform _).bind fun _ => .pure _
  · exact .pure _

theorem verifyOne (execution : ExecutionResult) (step : PlanStep) :
    Preserves invariant (agent.verifyOne execution step) :=
  keeps.perform _

theorem verifySteps (execution : ExecutionResult) (steps : List PlanStep) :
    Preserves invariant (agent.verifySteps execution steps) :=
  .foldlM (fun _ step => (keeps.verifyOne execution step).bind fun _ => .pure _) steps []

theorem recoveryPlanner : Preserves invariant agent.recoveryPlanner := by
  unfold SingleAgent.recoveryPlanner
  split
  · exact .pure _
  · exact (keeps.perform _).bind fun _ => .pure _

theorem summarize (execution : ExecutionResult) (verification : VerificationResult)
    (recovery : Option RecoveryOutcome) :
    Preserves invariant (agent.summarize execution verification recovery) := by
  unfold SingleAgent.summarize
  dsimp only
  split
  · exact .pure _
  · exact keeps.perform _

theorem searchReply (goal : String) (sources : List Json) :
    Preserves invariant (agent.searchReply goal sources) := by
  have answered := (keeps.perform (agent.answerSearch ("User question: " ++ goal ++
    "\n\nUntrusted search snippets:\n" ++ searchDigest sources))).bind
      fun text => Preserves.pure (Text.strip text)
  exact (answered.tryCatch fun _ => .pure _).bind fun _ => .pure _

theorem searchReplies (goal : String) (step : PlanStep) (results : List ToolResult) :
    Preserves invariant (agent.searchReplies goal step results) := by
  unfold SingleAgent.searchReplies
  split
  · exact .mapM (keeps.searchReply goal) _
  · exact .pure _

theorem stepReply (plan : Plan) (execution : ExecutionResult) (step : PlanStep) :
    Preserves invariant (agent.stepReply plan execution step) := by
  apply (keeps.searchReplies plan.goal step _).bind
  intro _
  have external : Preserves invariant (MonadExcept.ofExcept
      (mcpReplies step (execution.resultsOf step.id)) : AgentM World (List String)) :=
    .ofExcept _
  exact external.bind fun _ => .pure _

theorem collectReply (plan : Plan) (execution : ExecutionResult) :
    Preserves invariant (agent.collectReply plan execution) :=
  (Preserves.mapM (keeps.stepReply plan execution) _).bind fun _ => .pure _

end OutsideInvariant

namespace CallInvariant

open SingleAgent

variable {agent : SingleAgent World} {invariant : AgentState World → Prop}
  (keeps : CallInvariant agent invariant)
include keeps

theorem save : Preserves invariant agent.save :=
  Preserves.get.bind fun state => (keeps.perform _).bind fun _ =>
    .modify fun after holds => keeps.saved after state.context holds

theorem note (observation : String) :
    Preserves invariant (note observation : AgentM World Unit) :=
  .modify fun state holds => keeps.context state _ rfl holds

theorem surveyWorkspace : Preserves invariant agent.surveyWorkspace := by
  unfold SingleAgent.surveyWorkspace
  split
  · exact (keeps.perform _).bind fun _ => keeps.note _
  · exact .pure _

theorem findings (query : String) : Preserves invariant (agent.findings query) := by
  unfold SingleAgent.findings
  split
  · exact (keeps.note _).bind fun _ => .pure _
  · apply (keeps.perform _).bind
    intro result
    have noted : Preserves invariant (noteResearch result.sources : AgentM World Unit) :=
      .modify fun state holds => keeps.context state _ rfl holds
    apply noted.bind
    intro _
    exact (Preserves.forM fun _ _ => keeps.note _).bind fun _ => .pure _

theorem setPlan (plan : Plan) :
    Preserves invariant (setPlan plan : AgentM World Unit) :=
  .modify fun state holds => keeps.context state _ rfl holds

theorem persistGraph (graph : Snapshot) :
    Preserves invariant (persistGraph graph : AgentM World Unit) :=
  .modify fun state holds => keeps.saved { state with
    context := { state.context with graph } } _ (keeps.context state _ rfl holds)

theorem executeGraph (plan : Plan) (arguments : Arguments) :
    Preserves invariant (agent.executeGraph plan arguments) := by
  unfold SingleAgent.executeGraph
  split
  · exact .throw _
  · apply (keeps.perform _).bind
    intro executor
    have built : Preserves invariant
        (MonadExcept.ofExcept (TaskGraph.fromPlan plan) : AgentM World TaskGraph) :=
      .ofExcept _
    apply built.bind
    intro graph
    apply (keeps.observe _).bind
    intro answered
    exact (keeps.persistGraph _).bind fun _ => .ofExcept _

omit keeps in
theorem asCall {answer : Type} {action : AgentM World answer}
    (kept : Preserves invariant action) {state : AgentState World}
    (holds : invariant state) : invariant (asCall action state).2 := by
  unfold SingleAgent.asCall
  cases ran : action state with
  | ok answer after => exact kept.returned holds ran
  | error error after => exact kept.raised holds ran

/-- The callables of the recovery keep the invariant of the state they act on. -/
theorem recoveryRun (planner : Option (RecoveryPlanner World)) :
    (agent.recoveryRun planner).KeepsWorld invariant where
  executes plan arguments state holds := asCall (keeps.executeGraph plan _) holds
  verifies taskId plan result state holds := by
    apply asCall _ holds
    exact (Preserves.mapM (keeps.verifyOne result) _).bind fun _ => .pure _
  replans overPlanner given provider provided taskId plan reason state holds := by
    rcases Option.map_eq_some_iff.mp given with ⟨planner, _, rfl⟩
    rcases Option.map_eq_some_iff.mp provided with ⟨provider, _, rfl⟩
    exact keeps.outside state _ holds

theorem noteSources (named : List (List (String × Json))) :
    Preserves invariant (noteSources named : AgentM World Unit) :=
  .modify fun state holds => keeps.context state _ rfl holds

theorem report (reached : Reached) (verification : VerificationResult)
    (status : AgentStatus) :
    Preserves invariant (agent.report reached verification status) := by
  apply (keeps.summarize _ _ _).bind
  intro summary
  have named : Preserves invariant (MonadExcept.ofExcept
      (namedSources reached.execution) : AgentM World _) := .ofExcept _
  apply named.bind
  intro sources
  apply (keeps.collectReply _ _).bind
  intro reply
  apply (keeps.noteSources _).bind
  intro _
  exact Preserves.get.bind fun _ => keeps.save.bind fun _ => .pure _

end CallInvariant

/-! ## The phases -/

namespace PhaseInvariant

open SingleAgent

variable {agent : SingleAgent World} {invariant : AgentState World → Prop}
  (keeps : PhaseInvariant agent invariant)
include keeps

theorem transition {target : TaskState} (goesOn : isTerminal target = false) :
    Preserves invariant (transition target : AgentM World Unit) :=
  preserves_transition fun state valid holds =>
    keeps.saved _ _ (keeps.moves state target goesOn valid holds)

theorem emit {eventType : EventType} (goesOn : endsTask eventType = false)
    {payload : List (String × Json)}
    (counts : CountsPlan { eventType, taskId := agent.taskId, payload }) :
    Preserves invariant (agent.emit eventType payload) :=
  .modify fun state holds => keeps.emits state _ goesOn counts holds

theorem walkTo {target : TaskState} (goesOn : isTerminal target = false) :
    Preserves invariant (walkTo target : AgentM World Unit) :=
  walkTo_keeps (fun goesOn => keeps.transition goesOn) goesOn

theorem understand (goalText : String) :
    Preserves invariant (agent.understand goalText) := by
  apply (keeps.transition rfl).bind
  intro _
  apply (keeps.perform _).bind
  intro _
  apply Preserves.bind
  · apply (keeps.perform _).tryCatch
    intro error
    split
    · exact .throw _
    · exact .throw _
  · intro spec
    apply keeps.save.bind
    intro _
    exact (keeps.emit rfl (by simp [CountsPlan])).bind fun _ => .pure _

theorem aware : Preserves invariant agent.aware := by
  apply (keeps.transition rfl).bind
  intro _
  apply (keeps.note _).bind
  intro _
  apply keeps.surveyWorkspace.bind
  intro _
  exact keeps.save.bind fun _ => keeps.emit rfl (by simp [CountsPlan])

theorem researchPhase (query : String) :
    Preserves invariant (agent.researchPhase query) := by
  apply (keeps.transition rfl).bind
  intro _
  apply (keeps.findings query).bind
  intro text
  exact keeps.save.bind fun _ => .pure _

theorem researchFor (goalText : String) (spec : TaskSpec) :
    Preserves invariant (agent.researchFor goalText spec) := by
  unfold SingleAgent.researchFor
  dsimp only
  split
  · exact (keeps.searchQuery goalText spec).bind fun query => keeps.researchPhase _
  · exact .pure _

theorem recalled (goalText : String) :
    Preserves invariant (agent.recall_ goalText) := by
  unfold SingleAgent.recall_
  split
  · exact .pure _
  · apply (keeps.perform _).bind
    intro recalled
    apply (Preserves.forM fun _ _ => keeps.note _).bind
    intro _
    apply keeps.save.bind
    intro _
    exact (keeps.emit rfl (by simp [CountsPlan])).bind fun _ => .pure _

theorem enterPlanning :
    Preserves invariant (enterPlanning : AgentM World Unit) := by
  apply (currentState_keeps invariant).bind
  intro current
  split
  · exact .pure _
  · exact keeps.transition rfl

theorem plan (goalText context : String) :
    Preserves invariant (agent.plan goalText context) := by
  apply keeps.enterPlanning.bind
  intro _
  apply (keeps.perform _).bind
  intro proposed
  apply (Preserves.mapM (keeps.formQuery goalText) _).bind
  intro steps
  exact (keeps.setPlan _).bind fun _ => keeps.save.bind fun _ =>
    (keeps.emit rfl fun _ => ⟨_, rfl⟩).bind fun _ => .pure _

theorem prepare (goalText : String) : Preserves invariant (agent.prepare goalText) := by
  apply keeps.checkCancelled.bind
  intro _
  apply (keeps.understand goalText).bind
  intro spec
  apply keeps.checkCancelled.bind
  intro _
  apply keeps.aware.bind
  intro _
  apply keeps.checkCancelled.bind
  intro _
  apply (keeps.researchFor goalText spec).bind
  intro research
  exact (keeps.recalled goalText).bind fun recalled => keeps.plan goalText _

/-! An invariant that does not look at what has been observed is kept by the rest. -/

variable (unobserved : ∀ state trace, invariant state → invariant { state with trace })
include unobserved

omit keeps in
theorem observed {answer : Type} {observation : Except Error answer → Observation}
    {action : AgentM World answer} (kept : Preserves invariant action) :
    Preserves invariant (observed observation action) := by
  intro state holds
  unfold leaves SingleAgent.observed
  cases ran : action state with
  | ok answer after => exact unobserved after _ (kept.returned holds ran)
  | error error after => exact unobserved after _ (kept.raised holds ran)

theorem execute (plan : Plan) : Preserves invariant (agent.execute plan) :=
  (keeps.walkTo rfl).bind fun _ =>
    observed unobserved (keeps.executeGraph plan _)

theorem verify (plan : Plan) (execution : ExecutionResult) :
    Preserves invariant (agent.verify plan execution) :=
  (keeps.walkTo rfl).bind fun _ =>
    observed unobserved (keeps.verifySteps execution plan.steps)

/-- The events of a recovery do not end the task. -/
theorem joined {loop : RecoveryLoop (AgentState World)}
    (announces : RecoveryRun.Announces loop) (holds : invariant loop.world) :
    invariant (joined loop) := by
  have published : ∀ (events : List Event) (state : AgentState World),
      (∀ event ∈ events, endsTask event.eventType = false ∧ CountsPlan event) →
      invariant state →
      invariant { state with events := state.events ++ events } := by
    intro events
    induction events with
    | nil =>
        intro state _ holds
        rw [List.append_nil]
        exact holds
    | cons event rest induction =>
        intro state goesOn holds
        rcases goesOn event List.mem_cons_self with ⟨continues, counts⟩
        have first := keeps.emits state event continues counts holds
        have others := induction _
          (fun other member => goesOn other (List.mem_cons_of_mem _ member)) first
        rw [List.append_assoc] at others
        exact others
  have quiet : ∀ event ∈ loop.events, endsTask event.eventType = false ∧
      CountsPlan event := by
    intro event member
    unfold CountsPlan
    rcases announces event member with kind | kind <;> rw [kind] <;> simp [endsTask]
  exact unobserved _ _ (published loop.events loop.world quiet holds)

theorem recover (planner : Option (RecoveryPlanner World)) (plan : Plan)
    (execution : ExecutionResult) (verification : VerificationResult) :
    Preserves invariant (agent.recover planner plan execution verification) := by
  intro state holds
  have kept := RecoveryRun.conclude_keeps (keeps.recoveryRun planner)
    plan (some execution) (some verification) holds
  have announces := RecoveryRun.conclude_announces (agent.recoveryRun planner)
    plan (some execution) (some verification) state
  unfold leaves SingleAgent.recover
  generalize (agent.recoveryRun planner).conclude plan (some execution)
    (some verification) state = concluded at *
  rcases concluded with ⟨answer, loop⟩
  cases answer with
  | ok outcome => exact keeps.joined unobserved announces kept
  | error error => exact keeps.joined unobserved announces kept

theorem recoverIfNeeded (plan : Plan) (execution : ExecutionResult)
    (verifications : List (String × VerificationResult)) :
    Preserves invariant (agent.recoverIfNeeded plan execution verifications) := by
  unfold SingleAgent.recoverIfNeeded
  split
  · exact .pure _
  · apply (keeps.transition rfl).bind
    intro _
    apply (keeps.emit rfl (by simp [CountsPlan])).bind
    intro _
    apply keeps.recoveryPlanner.bind
    intro planner
    apply (keeps.recover unobserved planner plan execution _).bind
    intro outcome
    exact (keeps.transition rfl).bind fun _ => (keeps.transition rfl).bind fun _ => .pure _

theorem pursue (plan : Plan) : Preserves invariant (agent.pursue plan) := by
  apply (keeps.execute unobserved plan).bind
  intro execution
  apply keeps.checkCancelled.bind
  intro _
  apply (keeps.verify unobserved plan execution).bind
  intro verifications
  apply (keeps.recoverIfNeeded unobserved plan execution verifications).bind
  intro recovery
  exact (keeps.perform _).bind fun _ => .pure _

end PhaseInvariant

/-! ## Whole runs -/

theorem conclusion_counts (reached : Reached) (verification : VerificationResult)
    {taskId : String} : CountsPlan {
      eventType := (SingleAgent.conclusion reached verification).2.2.1
      taskId
      payload := (SingleAgent.conclusion reached verification).2.2.2 } := by
  intro plans
  unfold SingleAgent.conclusion at plans
  dsimp only at plans
  split at plans
  · cases plans
  · split at plans
    · cases plans
    · split at plans
      · cases plans
      · cases plans

namespace RunInvariant

open SingleAgent

variable {agent : SingleAgent World} {invariant : AgentState World → Prop}
  (keeps : RunInvariant agent invariant)
include keeps

theorem phases : PhaseInvariant agent invariant where
  toCallInvariant := keeps.toCallInvariant
  emits state event _ := keeps.emits state event
  moves state target _ := keeps.moves state target

theorem transition (target : TaskState) :
    Preserves invariant (transition target : AgentM World Unit) :=
  preserves_transition fun state valid holds =>
    keeps.saved _ _ (keeps.moves state target valid holds)

theorem emit {eventType : EventType} {payload : List (String × Json)}
    (counts : CountsPlan { eventType, taskId := agent.taskId, payload }) :
    Preserves invariant (agent.emit eventType payload) :=
  .modify fun state holds => keeps.emits state _ counts holds

theorem cancelled (error : String) : Preserves invariant (agent.cancelled error) := by
  apply (currentState_keeps invariant).bind
  intro current
  have saves : Preserves invariant (do
      agent.save
      return {
        taskId := agent.taskId
        summary := "Cancelled by the operator before completion."
        error } : AgentM World AgentResult) := keeps.save.bind fun _ => .pure _
  split
  · exact saves
  · exact (keeps.transition _).bind fun _ => saves

theorem fail (error : String) : Preserves invariant (agent.fail error) := by
  apply (currentState_keeps invariant).bind
  intro current
  have answers : Preserves invariant (do
      agent.emit .taskFailed [("error", .str error)]
      agent.save
      return { taskId := agent.taskId, error } : AgentM World AgentResult) :=
    (keeps.emit (by simp [CountsPlan])).bind fun _ => keeps.save.bind fun _ => .pure _
  split
  · exact answers
  · exact (keeps.transition _).bind fun _ => answers

theorem complete (reached : Reached) : Preserves invariant (agent.complete reached) := by
  apply (currentState_keeps invariant).bind
  intro current
  split
  · exact keeps.cancelled _
  · exact (keeps.transition _).bind fun _ => (keeps.emit (conclusion_counts _ _)).bind fun _ =>
      keeps.report _ _ _

theorem handle (error : Error) : Preserves invariant (agent.handle error) := by
  unfold SingleAgent.handle
  split
  · exact keeps.cancelled _
  · apply keeps.tokenCancelled.bind
    intro cancelled
    split
    · exact keeps.cancelled _
    · exact keeps.fail _

end RunInvariant

end Raphael.Agent.Orchestrator
