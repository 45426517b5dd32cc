import Raphael.Agent.Executor.LoopPhases

/-! # What the loop publishes

Behind the start of the graph every event tells of one change of a node, in the order of
the log. -/

namespace Raphael.Agent.Executor

open Core Foundation

/-- The event that tells of a move to a state. -/
def changeEvent : StepState → Option EventType
  | .pending => none
  | .ready => some .stepReady
  | .running => some .stepStarted
  | .succeeded => some .stepCompleted
  | .failed => some .stepFailed
  | .timedOut => some .stepTimedOut
  | .cancelled => some .stepCancelled
  | .skipped => some .stepSkipped

namespace Execution

variable {run : Execution}

structure Tells (run : Execution) (change : Change) (event : Event) : Prop where
  kind : changeEvent change.target = some event.eventType
  task : event.taskId = run.taskId
  step : Json.lookup "step_id" event.payload = some (.str change.stepId)

/-- The later loop has published what was changed since. -/
def Reports (run : Execution) (before after : Loop) : Prop :=
  ∃ changes events, after.changes = before.changes ++ changes ∧
    after.events = before.events ++ events ∧ List.Forall₂ run.Tells changes events

namespace Reports

variable {before middle after : Loop}

theorem of_same (changes : after.changes = before.changes) (events : after.events = before.events) :
    run.Reports before after :=
  ⟨[], [], changes.trans (List.append_nil _).symm, events.trans (List.append_nil _).symm, .nil⟩

theorem refl (loop : Loop) : run.Reports loop loop := of_same rfl rfl

theorem trans (front : run.Reports before middle) (back : run.Reports middle after) :
    run.Reports before after := by
  rcases front with ⟨changes, events, grown, published, tells⟩
  rcases back with ⟨more, later, grows, publishes, telling⟩
  refine ⟨changes ++ more, events ++ later, ?_, ?_, List.rel_append tells telling⟩
  · rw [grows, grown, List.append_assoc]
  · rw [publishes, published, List.append_assoc]

/-- One change with its event. -/
theorem single {id : String} {source target : StepState} {kind : EventType}
    {payload : List (String × Json)} (tells : changeEvent target = some kind)
    (names : Json.lookup "step_id" payload = some (.str id))
    (changes : after.changes = before.changes ++ [⟨id, source, target⟩])
    (events : after.events = before.events ++
      [{ eventType := kind, taskId := run.taskId, payload }]) : run.Reports before after :=
  ⟨_, _, changes, events, .cons ⟨tells, rfl, names⟩ .nil⟩

end Reports

/-! ## The phases -/

variable {loop after : Loop} {turn : Turn} {step : PlanStep}

theorem stop_reports (done : run.stop turn loop step = .ok after) : run.Reports loop after := by
  rcases stop_cases done with ⟨_, rfl⟩ | ⟨_, rfl⟩
  · exact .refl _
  · exact .single rfl rfl rfl rfl

theorem stopPhase_reports (done : run.stopPhase turn loop = .ok after) :
    run.Reports loop after := by
  apply stopPhase_keeps (fun next => run.Reports loop next) _ (.refl _) done
  intro step middle next reports stopped
  exact reports.trans (stop_reports stopped)

theorem submit_reports (done : run.submit loop step = .ok after) : run.Reports loop after := by
  rcases submit_cases done with ⟨_, readied, shape, rfl⟩
  have readies : run.Reports loop readied := by
    rw [shape]
    exact .single rfl rfl rfl rfl
  exact readies.trans (.single rfl rfl rfl rfl)

theorem submitPhase_reports (done : run.submitPhase turn loop = .ok after) :
    run.Reports loop after := by
  apply submitPhase_keeps (fun next => run.Reports loop next) _ (.refl _) done
  intro step middle next reports submitted
  exact reports.trans (submit_reports submitted)

/-- What a collected step is told by. -/
theorem settlement_tells (run : Execution) (step : PlanStep) :
    changeEvent (run.settlement step).1 = some (run.settlement step).2.2.1 ∧
      Json.lookup "step_id" (run.settlement step).2.2.2 = some (.str step.id) := by
  unfold settlement
  dsimp only
  split
  · exact ⟨rfl, rfl⟩
  · split
    · exact ⟨rfl, rfl⟩
    · exact ⟨rfl, rfl⟩

theorem settle_reports (done : run.settle loop step = .ok after) : run.Reports loop after := by
  rcases settle_cases done with rfl | ⟨_, target, error, eventType, payload, settled, rfl⟩
  · exact .of_same rfl rfl
  · have tells := settlement_tells run step
    rw [settled] at tells
    exact .single tells.1 tells.2 rfl rfl

theorem collectCompleted_reports (done : run.collectCompleted turn loop = .ok after) :
    run.Reports loop after := by
  apply collectCompleted_keeps (fun next => run.Reports loop next) _ (.refl _) done
  intro step _ middle next reports settled
  exact reports.trans (settle_reports settled)

/-- The steps that `mark_unsatisfiable` names are those that it has skipped. -/
theorem markUnsatisfiable_changes {state next : GraphState} {skipped : List String}
    (marked : state.markUnsatisfiable run.graph = .ok (next, skipped)) :
    ∃ changes, next.changes = state.changes ++ changes ∧
      List.Forall₂ (fun change id => change.stepId = id ∧ change.target = StepState.skipped)
        changes skipped := by
  apply foldlM_keeps (fun answer : GraphState × List String =>
    ∃ changes, answer.1.changes = state.changes ++ changes ∧
      List.Forall₂ (fun change id => change.stepId = id ∧ change.target = StepState.skipped)
        changes answer.2) _ ⟨[], (List.append_nil _).symm, .nil⟩ marked
  rintro step _ ⟨middle, named⟩ ⟨last, more⟩ ⟨changes, grown, names⟩ skips
  rcases skipStep_cases skips with ⟨rfl, rfl⟩ | ⟨_, rfl, _, _, _, _, rfl⟩
  · exact ⟨changes, grown, names⟩
  · refine ⟨changes ++ [⟨step.id, middle.table step.id, .skipped⟩], ?_, ?_⟩
    · change middle.changes = _ at grown
      rw [GraphState.changes_amend, GraphState.changes_move, grown, List.append_assoc]
    · exact List.rel_append names (.cons ⟨rfl, rfl⟩ .nil)

theorem skipUnsatisfiable_reports (done : run.skipUnsatisfiable loop = .ok after) :
    run.Reports loop after := by
  rcases skipUnsatisfiable_cases done with ⟨state, skipped, payloads, marked, given, rfl⟩
  rcases markUnsatisfiable_changes marked with ⟨changes, grown, names⟩
  refine ⟨changes, _, grown, rfl, ?_⟩
  clear marked grown done
  induction names generalizing payloads with
  | nil =>
      cases given
      exact .nil
  | cons named _ induction =>
      cases given with
      | cons told rest =>
          rcases named with ⟨rfl, skips⟩
          exact .cons ⟨by rw [skips]; rfl, rfl, told⟩ (induction _ rest)

theorem drain_reports (loop : Loop) (step : PlanStep) :
    run.Reports loop (run.drain loop step) := by
  rcases drain_cases run loop step with same | drained
  · rw [same]
    exact .refl _
  · rw [drained]
    exact .single rfl rfl rfl rfl

theorem drainAll_reports (steps : List PlanStep) (loop : Loop) :
    run.Reports loop (steps.foldl run.drain loop) := by
  induction steps generalizing loop with
  | nil => exact .refl loop
  | cons step rest induction =>
      exact (drain_reports loop step).trans (induction (run.drain loop step))

theorem drainPhase_reports (loop : Loop) : run.Reports loop (run.drainPhase loop) := by
  rcases drainPhase_cases run loop with broke | ⟨_, drained⟩
  · rw [broke]
    exact .of_same rfl rfl
  · rw [drained]
    exact (drainAll_reports (run.stuck loop) loop).trans (.of_same rfl rfl)

theorem collectPhase_reports (done : run.collectPhase turn loop = .ok after) :
    run.Reports loop after := by
  rcases collectPhase_cases done with ⟨collected, skipped, collects, skips, rfl⟩
  have reports := (collectCompleted_reports collects).trans (skipUnsatisfiable_reports skips)
  exact reports.trans (.of_same rfl rfl)

theorem iterate_reports (done : run.iterate turn loop = .ok after) : run.Reports loop after := by
  rcases iterate_cases done with ⟨stopped, started, stops, starts, ends⟩
  have begun := (stopPhase_reports stops).trans (submitPhase_reports starts)
  rcases ends with ⟨_, rfl⟩ | ⟨_, collects⟩
  · exact begun.trans (drainPhase_reports started)
  · exact begun.trans (collectPhase_reports collects)

/-- The events at any turn: the start of the graph, and the changes in their order. -/
theorem after_reports {nodes : String → GraphNode} {turns : Nat} {loop : Loop}
    (reached : run.after nodes turns = .ok loop) : run.Reports (run.start nodes) loop :=
  after_keeps (fun loop => run.Reports (run.start nodes) loop) (.refl _)
    (fun _ _ _ reports done => reports.trans (iterate_reports done)) reached

end Execution

end Raphael.Agent.Executor
