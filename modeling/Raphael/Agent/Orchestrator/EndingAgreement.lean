import Raphael.Agent.Orchestrator.PhaseInvariant

/-! # The ending of a run

A run tells how it has ended in three places: the status of its result, the state of the
task, and the event that ends the task. `_complete` moves the task and publishes its event
before it builds the result; what is raised from then on reaches the handlers, which
publish and answer once more. -/

namespace Raphael.Agent.Orchestrator

open Core Foundation
open Agent.Executor
open Raphael.Runtime Tools

variable {World : Type}

/-- The events of a log that end the task. -/
def endings (events : List Event) : List EventType :=
  (events.map (·.eventType)).filter endsTask

/-- The events by which a task has come to its state. -/
def endingsOf : TaskState → List EventType
  | .completed => [.taskCompleted]
  | .failed => [.taskFailed]
  | _ => []

/-- The log of the task says how the task stands. -/
def LogAgrees (state : AgentState World) : Prop :=
  endings state.events = endingsOf state.task

/-- Result, task and log agree. -/
structure EndsInAgreement (result : AgentResult) (final : AgentState World) : Prop where
  status : result.status = .completed ↔ final.task = .completed
  log : LogAgrees final

theorem endings_concat (events : List Event) (event : Event) :
    endings (events ++ [event]) =
      endings events ++ if endsTask event.eventType then [event.eventType] else [] := by
  simp only [endings, List.map_append, List.map_cons, List.map_nil, List.filter_append]
  cases ends : endsTask event.eventType <;> simp [ends]

/-- A task that is not terminal has not ended. -/
theorem endingsOf_open {task : TaskState} (goesOn : isTerminal task = false) :
    endingsOf task = [] := by
  cases task <;> first | rfl | cases goesOn

theorem open_of_isValidTransition {task target : TaskState}
    (valid : isValidTransition task target = true) : isTerminal task = false := by
  cases terminal : isTerminal task with
  | true =>
      rw [isValidTransition_of_terminal terminal] at valid
      cases valid
  | false => rfl

namespace SingleAgent

variable {agent : SingleAgent World}

/-- `_drive` without its handlers. -/
def attempt (agent : SingleAgent World) (goalText : String) :
    AgentM World AgentResult := do
  let plan ← agent.prepare goalText
  let reached ← agent.pursue plan
  agent.complete reached

/-- The handler that an exception reaches may still end the task: `_fail` finds it not
terminal, and `_cancelled` finds it not COMPLETED. -/
def EndsOpen (agent : SingleAgent World) (error : Error) (state : AgentState World) : Prop :=
  match error with
  | .cancelled _ => state.task ≠ .completed
  | _ =>
      match agent.tokenCancelled state with
      | .ok true after => after.task ≠ .completed
      | .ok false after => isTerminal after.task = false
      | .error _ _ => True

/-- No exception of a run reaches a handler that cannot end the task any more. -/
def RaisesOpen (agent : SingleAgent World) (goalText : String) (start : AgentState World) :
    Prop :=
  ∀ error between, agent.attempt goalText start = .error error between →
    agent.EndsOpen error between

/-! ## What a run keeps -/

/-- The operator moves no task that has ended. -/
theorem ended_callInvariant {task : TaskState} (terminal : isTerminal task = true)
    (events : List Event) :
    CallInvariant agent fun state => state.task = task ∧ state.events = events where
  outside state world ended := by
    rcases ended with ⟨rfl, rfl⟩
    unfold interrupted
    simp [terminal]
  context _ _ _ ended := ended
  saved _ _ ended := ended

theorem logAgrees_phaseInvariant : PhaseInvariant agent LogAgrees where
  outside state world agrees := by
    unfold interrupted
    split
    · next cancels =>
        simp only [Bool.and_eq_true, Bool.not_eq_true'] at cancels
        have none := endingsOf_open cancels.2
        unfold LogAgrees at agrees ⊢
        rw [none] at agrees
        exact agrees
    · exact agrees
  context _ _ _ agrees := agrees
  saved _ _ agrees := agrees
  emits state event goesOn _ agrees := by
    unfold LogAgrees at agrees ⊢
    rw [endings_concat, goesOn, agrees]
    exact List.append_nil _
  moves state target goesOn valid agrees := by
    have none := endingsOf_open (open_of_isValidTransition valid)
    unfold LogAgrees at agrees ⊢
    rw [none] at agrees
    rw [endingsOf_open goesOn]
    exact agrees

/-- A move to CANCELLED ends the task without an event. -/
theorem logAgrees_cancels {state : AgentState World} (agrees : LogAgrees state)
    (goesOn : isTerminal state.task = false) (saved : ExecutionContext) :
    LogAgrees { state with
      task := .cancelled
      saved } := by
  unfold LogAgrees at agrees ⊢
  rw [endingsOf_open goesOn] at agrees
  exact agrees

/-- What `_complete` ends a task with belongs together. -/
theorem conclusion_agrees (reached : Reached) (verification : VerificationResult) :
    ((conclusion reached verification).1 = .completed ↔
      (conclusion reached verification).2.1 = .completed) ∧
    isTerminal (conclusion reached verification).2.1 = true ∧
    endsTask (conclusion reached verification).2.2.1 = true ∧
    endingsOf (conclusion reached verification).2.1 =
      [(conclusion reached verification).2.2.1] := by
  unfold conclusion
  dsimp only
  split
  · decide
  · split
    · decide
    · split <;> decide

/-! ## The endings -/

/-- A save of an ended task moves nothing and publishes nothing. -/
theorem save_ended {state final : AgentState World} {answer : Unit}
    (terminal : isTerminal state.task = true)
    (saves : agent.save state = .ok answer final) :
    final.task = state.task ∧ final.events = state.events :=
  (ended_callInvariant terminal state.events).save.returned ⟨rfl, rfl⟩ saves

/-- Where `_cancelled` and `_fail` move a task that has not ended. -/
def ended (target : TaskState) (state : AgentState World) : AgentState World :=
  if isTerminal state.task then state
  else { state with
    task := target
    saved := { state.saved with currentState := target } }

theorem ended_of_terminal {target : TaskState} {state : AgentState World}
    (terminal : isTerminal state.task = true) : ended target state = state :=
  if_pos terminal

theorem task_ended_of_open {target : TaskState} {state : AgentState World}
    (goesOn : isTerminal state.task = false) : (ended target state).task = target := by
  rw [ended, goesOn]
  rfl

theorem events_ended (target : TaskState) (state : AgentState World) :
    (ended target state).events = state.events := by
  unfold ended
  split <;> rfl

theorem isTerminal_ended {target : TaskState} (terminal : isTerminal target = true)
    (state : AgentState World) : isTerminal (ended target state).task = true := by
  cases stands : isTerminal state.task with
  | true =>
      rw [ended_of_terminal stands]
      exact stands
  | false =>
      rw [task_ended_of_open stands]
      exact terminal

/-- Behind the move, `_cancelled` and `_fail` go on with the task ended. -/
theorem moveUnlessTerminal_apply {target : TaskState} {answer : Type}
    (reaches : ∀ {task}, isTerminal task = false → isValidTransition task target = true)
    (rest : AgentM World answer) (state : AgentState World) :
    (do
      let current ← currentState
      if isTerminal current then pure () else transition target
      rest) state = rest (ended target state) := by
  change (do
    if isTerminal state.task then pure () else transition target
    rest) state = _
  cases terminal : isTerminal state.task with
  | true =>
      rw [ended_of_terminal terminal]
      rfl
  | false =>
      have moved : ended target state = { state with
          task := target
          saved := { state.saved with currentState := target } } := by
        rw [ended, terminal]
        rfl
      change (transition target >>= fun _ => rest) state = _
      rw [bind_apply, transition_ok (reaches terminal), moved]

theorem cancelled_apply (error : String) (state : AgentState World) :
    agent.cancelled error state = (do
      agent.save
      return {
        taskId := agent.taskId
        summary := "Cancelled by the operator before completion."
        error } : AgentM World AgentResult) (ended .cancelled state) :=
  moveUnlessTerminal_apply (by intro task; cases task <;> decide) _ state

theorem fail_apply (error : String) (state : AgentState World) :
    agent.fail error state = (do
      agent.emit .taskFailed [("error", .str error)]
      agent.save
      return { taskId := agent.taskId, error } : AgentM World AgentResult)
        (ended .failed state) :=
  moveUnlessTerminal_apply (by intro task; cases task <;> decide) _ state

theorem cancelled_returned {error : String} {state final : AgentState World}
    {result : AgentResult} (returns : agent.cancelled error state = .ok result final) :
    result.status = .failed ∧ final.task = (ended .cancelled state).task ∧
      final.events = state.events := by
  rw [cancelled_apply] at returns
  rcases bind_eq_ok.mp returns with ⟨_, between, saved, last⟩
  rcases pure_eq_ok.mp last with ⟨rfl, rfl⟩
  have kept := save_ended (isTerminal_ended rfl state) saved
  exact ⟨rfl, kept.1, kept.2.trans (events_ended _ state)⟩

theorem fail_returned {error : String} {state final : AgentState World}
    {result : AgentResult} (returns : agent.fail error state = .ok result final) :
    result.status = .failed ∧ final.task = (ended .failed state).task ∧
      endings final.events = endings state.events ++ [.taskFailed] := by
  rw [fail_apply] at returns
  rcases bind_eq_ok.mp returns with ⟨_, published, emitted, saves⟩
  rcases bind_eq_ok.mp saves with ⟨_, between, saved, last⟩
  rcases pure_eq_ok.mp last with ⟨rfl, rfl⟩
  have emits : published = { ended .failed state with
      events := (ended .failed state).events ++
        [{ eventType := .taskFailed
           taskId := agent.taskId
           payload := [("error", .str error)] }] } := by
    cases emitted
    rfl
  subst emits
  have kept := save_ended (by exact isTerminal_ended rfl state) saved
  refine ⟨rfl, kept.1, ?_⟩
  rw [kept.2, endings_concat, events_ended]
  rfl

/-- `_cancelled` agrees with every task but a COMPLETED one. -/
theorem cancelled_agrees_iff {error : String} {state final : AgentState World}
    {result : AgentResult} (agrees : LogAgrees state)
    (returns : agent.cancelled error state = .ok result final) :
    EndsInAgreement result final ↔ state.task ≠ .completed := by
  rcases cancelled_returned returns with ⟨failed, sameTask, sameEvents⟩
  have completes : final.task = .completed ↔ state.task = .completed := by
    rw [sameTask, ended]
    split
    · rfl
    · next goesOn =>
        constructor
        · intro completed
          cases completed
        · intro completed
          rw [completed] at goesOn
          exact absurd rfl goesOn
  constructor
  · intro agreement completed
    have status := agreement.status.mpr (completes.mpr completed)
    rw [failed] at status
    cases status
  · intro incomplete
    constructor
    · rw [failed, completes]
      simp [incomplete]
    · unfold LogAgrees at agrees ⊢
      rw [sameEvents, agrees, sameTask, ended]
      split
      · rfl
      · next goesOn => exact endingsOf_open (by simpa using goesOn)

/-- `_fail` agrees with the tasks that it ends. -/
theorem fail_agrees_iff {error : String} {state final : AgentState World}
    {result : AgentResult} (agrees : LogAgrees state)
    (returns : agent.fail error state = .ok result final) :
    EndsInAgreement result final ↔ isTerminal state.task = false := by
  rcases fail_returned returns with ⟨failed, sameTask, published⟩
  rw [agrees] at published
  constructor
  · intro agreement
    have log := agreement.log
    have status := agreement.status
    unfold LogAgrees at log
    rw [published] at log
    by_contra terminal
    have unmoved : final.task = state.task := by
      rw [sameTask, ended_of_terminal (by simpa using terminal)]
    rw [unmoved] at log
    cases stands : state.task <;> rw [stands] at log <;> cases log
  · intro goesOn
    have moved : final.task = .failed := by
      rw [sameTask, task_ended_of_open goesOn]
    constructor
    · rw [failed, moved]
      decide
    · unfold LogAgrees
      rw [published, endingsOf_open goesOn, moved]
      rfl

theorem handle_agrees_iff {error : Error} {state final : AgentState World}
    {result : AgentResult} (agrees : LogAgrees state)
    (returns : agent.handle error state = .ok result final) :
    EndsInAgreement result final ↔ agent.EndsOpen error state := by
  have others : (do
        if ← agent.tokenCancelled then agent.cancelled agent.cancellation
        else agent.fail (agent.sanitizeException error)) state = .ok result final →
      (EndsInAgreement result final ↔ match agent.tokenCancelled state with
        | .ok true after => after.task ≠ .completed
        | .ok false after => isTerminal after.task = false
        | .error _ _ => True) := by
    intro returns
    rcases bind_eq_ok.mp returns with ⟨token, after, reads, ends⟩
    have still := logAgrees_phaseInvariant.tokenCancelled.returned agrees reads
    rw [reads]
    cases token with
    | true => exact cancelled_agrees_iff still ends
    | false => exact fail_agrees_iff still ends
  cases error with
  | cancelled message => exact cancelled_agrees_iff agrees returns
  | _ => exact others returns

/-! ## The completion -/

/-- `_complete`, where it stops before the task ends, and where it reports. -/
theorem complete_cases (reached : Reached) (state : AgentState World) :
    (state.task = .cancelled ∧
      agent.complete reached state = agent.cancelled "cancelled by operator" state) ∨
    (∃ error, agent.complete reached state = .error error state) ∨
    ∃ status target event,
      (status = .completed ↔ target = .completed) ∧ isTerminal target = true ∧
      isTerminal state.task = false ∧ endsTask event.eventType = true ∧
      endingsOf target = [event.eventType] ∧
      agent.complete reached state =
        agent.report reached (agent.overall reached.verifications) status { state with
          task := target
          saved := { state.saved with currentState := target }
          events := state.events ++ [event] } := by
  have looks : currentState state = .ok state.task state := rfl
  unfold complete
  rw [bind_apply, looks]
  dsimp only
  by_cases cancelled : state.task = .cancelled
  · rw [if_pos cancelled]
    exact .inl ⟨cancelled, rfl⟩
  · rw [if_neg cancelled, bind_apply]
    refine .inr ?_
    have agrees := conclusion_agrees reached (agent.overall reached.verifications)
    generalize conclusion reached (agent.overall reached.verifications) = concluded at *
    rcases concluded with ⟨status, target, eventType, payload⟩
    cases valid : isValidTransition state.task target with
    | false =>
        rcases transition_refused valid with ⟨error, refused⟩
        rw [refused]
        exact .inl ⟨error, rfl⟩
    | true =>
        rw [transition_ok valid]
        exact .inr ⟨status, target,
          { eventType, taskId := agent.taskId, payload }, agrees.1, agrees.2.1,
          open_of_isValidTransition valid, agrees.2.2.1, agrees.2.2.2, rfl⟩

/-- Where a task ends, its event comes behind a log without one. -/
theorem logAgrees_ends {state : AgentState World} (agrees : LogAgrees state)
    (goesOn : isTerminal state.task = false) {target : TaskState} {event : Event}
    (ends : endsTask event.eventType = true)
    (ended : endingsOf target = [event.eventType]) (saved : ExecutionContext) :
    LogAgrees { state with
      task := target
      saved
      events := state.events ++ [event] } := by
  unfold LogAgrees at agrees ⊢
  rw [endings_concat, ends, agrees, endingsOf_open goesOn, ended]
  rfl

/-- A cancelled task ends without an event. -/
theorem cancelled_keepsLog (error : String) :
    Preserves LogAgrees (agent.cancelled error) := by
  intro state agrees
  have moved : LogAgrees (ended .cancelled state) := by
    unfold ended
    split
    · exact agrees
    · next goesOn => exact logAgrees_cancels agrees (by simpa using goesOn) _
  have saves : Preserves LogAgrees (do
      agent.save
      return {
        taskId := agent.taskId
        summary := "Cancelled by the operator before completion."
        error } : AgentM World AgentResult) :=
    logAgrees_phaseInvariant.save.bind fun _ => .pure _
  unfold leaves
  rw [cancelled_apply]
  exact saves _ moved

/-- Whether `_complete` returns or raises, the log agrees behind it. -/
theorem complete_keeps (reached : Reached) :
    Preserves LogAgrees (agent.complete reached) := by
  intro state agrees
  unfold leaves
  rcases complete_cases reached state with ⟨cancelled, same⟩ | ⟨error, same⟩ |
    ⟨status, target, event, _, _, goesOn, ends, ended, same⟩
  · rw [same]
    exact cancelled_keepsLog _ state agrees
  · rw [same]
    exact agrees
  · rw [same]
    exact logAgrees_phaseInvariant.report _ _ _ _ (logAgrees_ends agrees goesOn ends ended _)

/-- `_complete` answers with the status of the task. -/
theorem complete_returned {reached : Reached} {state final : AgentState World}
    {result : AgentResult} (returns : agent.complete reached state = .ok result final) :
    result.status = .completed ↔ final.task = .completed := by
  rcases complete_cases reached state with ⟨cancelled, same⟩ | ⟨error, same⟩ |
    ⟨status, target, event, completes, terminal, _, _, _, same⟩
  · rw [same] at returns
    rcases cancelled_returned returns with ⟨failed, sameTask, _⟩
    rw [failed, sameTask, ended_of_terminal (by rw [cancelled]; rfl), cancelled]
    decide
  · cases same.symm.trans returns
  · rw [same] at returns
    have kept := (ended_callInvariant terminal (state.events ++ [event])).report _ _ _
      |>.returned ⟨rfl, rfl⟩ returns
    rw [kept.1, ← completes]
    rcases bind_eq_ok.mp returns with ⟨_, _, _, named⟩
    rcases bind_eq_ok.mp named with ⟨_, _, _, replied⟩
    rcases bind_eq_ok.mp replied with ⟨_, _, _, noted⟩
    rcases bind_eq_ok.mp noted with ⟨_, _, _, looked⟩
    rcases bind_eq_ok.mp looked with ⟨_, _, _, saved⟩
    rcases bind_eq_ok.mp saved with ⟨_, _, _, last⟩
    rcases pure_eq_ok.mp last with ⟨rfl, rfl⟩
    rfl

/-- The log of the task agrees with it wherever a run raises or returns. -/
theorem attempt_keeps (goalText : String) :
    Preserves LogAgrees (agent.attempt goalText) :=
  (logAgrees_phaseInvariant.prepare goalText).bind fun plan =>
    (logAgrees_phaseInvariant.pursue (fun _ _ agrees => agrees) plan).bind fun reached =>
      complete_keeps reached

/-- A run that returns, over a task whose log agreed with it, ends in agreement exactly if
no exception has reached a handler that could not end the task any more. -/
theorem endsInAgreement_iff (goalText : String) (start final : AgentState World)
    (result : AgentResult) (agreed : LogAgrees start)
    (returns : agent.runTask goalText start = .ok result final) :
    EndsInAgreement result final ↔ agent.RaisesOpen goalText start := by
  change tryCatch (agent.attempt goalText) agent.handle start = .ok result final at returns
  rw [tryCatch_apply] at returns
  cases attempted : agent.attempt goalText start with
  | ok answer after =>
      rw [attempted] at returns
      cases returns
      constructor
      · intro _ error between raises
        cases attempted.symm.trans raises
      · intro _
        rcases bind_eq_ok.mp attempted with ⟨plan, _, _, planned⟩
        rcases bind_eq_ok.mp planned with ⟨reached, _, _, completes⟩
        exact ⟨complete_returned completes, (attempt_keeps goalText).returned agreed attempted⟩
  | error error between =>
      rw [attempted] at returns
      have agrees := (attempt_keeps goalText).raised agreed attempted
      rw [handle_agrees_iff agrees returns]
      constructor
      · intro ends error' between' raises
        cases attempted.symm.trans raises
        exact ends
      · intro raisesOpen
        exact raisesOpen error between attempted

/-! A run whose one tool answers a search with a dict. -/

def searchPlan : Plan where
  id := "plan"
  goal := "look it up"
  steps := [{
    id := "s1"
    description := "search"
    tools := ["web.search"] }]

def searchAgent (output : Json) : SingleAgent Unit where
  taskId := "task"
  registry := {
    entries := [{ tool := { name := "web.search" }, handler := fun _ => .result {} }] }
  requestSpec := fun _ world => (.ok {}, world)
  planner := fun _ _ _ world => (.ok searchPlan, world)
  executorFactory := some fun world => (.ok fun taskId graph _ world =>
    ((.ok {
      taskId, status := .completed
      states := graph.ids.map fun id => (id, .succeeded)
      succeeded := graph.ids
      results := graph.ids.map fun id => (id, [{ taskId, success := true, output }]) },
      []), world), world)
  verifier := fun taskId stepId _ _ _ world =>
    (.ok { taskId, stepId, status := .passed }, world)
  recoveryExternals := {
    platform := {
      lower := id
      basename := id
      isAbsolute := fun _ => false
      isBelow := fun _ _ => true }
    identity := {
      modelDumpJson := fun plan => ((plan.get? "id").map Json.text).getD ""
      sha256 := id } }

/-- The status of the result, the task and the events that end it. -/
def outline (ran : EStateM.Result Error (AgentState World) AgentResult) :
    Option (AgentStatus × TaskState × List EventType) :=
  match ran with
  | .ok result final => some (result.status, final.task, endings final.events)
  | .error _ _ => none

theorem outline_eq_some {ran : EStateM.Result Error (AgentState World) AgentResult}
    {told : AgentStatus × TaskState × List EventType} (same : outline ran = some told) :
    ∃ result final, ran = .ok result final ∧ result.status = told.1 ∧
      final.task = told.2.1 ∧ endings final.events = told.2.2 := by
  cases ran with
  | ok result final =>
      cases same
      exact ⟨result, final, rfl, rfl, rfl, rfl⟩
  | error error after => cases same

/-- A search that finds nothing: the task is COMPLETED, and everything agrees. -/
theorem endsInAgreement_iff_found : ∃ result final,
    (searchAgent (.obj [("sources", .arr [])])).runTask "look it up" { world := () } =
      .ok result final ∧ final.task = .completed ∧
    (EndsInAgreement result final ↔
      (searchAgent (.obj [("sources", .arr [])])).RaisesOpen "look it up"
        { world := () }) := by
  have told : outline ((searchAgent (.obj [("sources", .arr [])])).runTask "look it up"
      { world := () }) = some (.completed, .completed, [.taskCompleted]) := by
    decide +kernel
  rcases outline_eq_some told with ⟨result, final, returns, _, completed, _⟩
  exact ⟨result, final, returns, completed,
    endsInAgreement_iff "look it up" { world := () } final result rfl returns⟩

/-- A search whose sources are null: the task is COMPLETED and published as such, then the
sources are gone through, and the handler fails the run. -/
theorem nullSources_disagrees :
    ¬ ∀ (agent : SingleAgent Unit) (goalText : String) (start final : AgentState Unit)
      (result : AgentResult), LogAgrees start →
        agent.runTask goalText start = .ok result final → EndsInAgreement result final := by
  intro agreesAlways
  have told : outline ((searchAgent (.obj [("sources", .null)])).runTask "look it up"
      { world := () }) = some (.failed, .completed, [.taskCompleted, .taskFailed]) := by
    decide +kernel
  rcases outline_eq_some told with ⟨result, final, returns, failed, completed, _⟩
  have agreement := agreesAlways _ "look it up" { world := () } final result rfl returns
  have status := agreement.status.mpr completed
  rw [failed] at status
  cases status

end SingleAgent

end Raphael.Agent.Orchestrator
