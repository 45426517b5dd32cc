import Raphael.Agent.Executor.ExecutorSafety
import Raphael.Agent.Orchestrator.SingleAgent

/-! # Resuming a task

What `SingleAgent.resume` executes after a crash. The persisted graph is in the
context's metadata, next to the plan; the graph that is executed is built from the plan
alone. -/

namespace Raphael.Agent.Orchestrator

open Core Agent.Executor

namespace SingleAgent

/-- The graph that `_execute` runs, and its nodes. -/
def graphOf (plan : Plan) : Except Error (TaskGraph × (String → GraphNode)) := do
  return (← TaskGraph.fromPlan plan, Execution.freshNodes)

/-- `resume`, up to its call of `execute_graph`. -/
def resumeGraph (taskId : String) (context : ExecutionContext) :
    Except Error (TaskGraph × (String → GraphNode)) :=
  match context.plan with
  | none => .error (.other ("task " ++ Text.repr taskId ++ " has no resumable plan"))
  | some plan => graphOf plan

/-- In every resumed call, at every turn of it, no step saved as `SUCCEEDED` had a tool
called, and every other step has the attempts saved for it and those of the call. -/
def KeepsProgress (context : ExecutionContext) : Prop :=
  ∀ (resumed : Execution) (nodes : String → GraphNode),
    resumeGraph resumed.taskId context = .ok (resumed.graph, nodes) →
    ∀ turns loop, resumed.after nodes turns = .ok loop →
    ∀ id node, (id, node) ∈ context.graph →
      (node.state = .succeeded → ∀ call, (id, call) ∉ loop.calls) ∧
      (node.state ≠ .succeeded →
        (loop.node id).attempts = node.attempts + Schedule.starts loop.changes id)

/-- No attempt is saved for the step, or it succeeded and has no tool to call. -/
def Unattempted (graph : TaskGraph) (id : String) (node : GraphNode) : Prop :=
  node.attempts = 0 ∨
    (node.state = .succeeded ∧ ∀ step ∈ graph.steps, step.id = id → step.tools = [])

end SingleAgent

end Raphael.Agent.Orchestrator

namespace Raphael.Agent.Executor.Execution

open Core

variable {run : Execution}

/-- What is saved is the graph after some number of turns. -/
theorem saved_of_after {turns : Nat} {loop : Loop}
    (reached : run.after freshNodes turns = .ok loop) :
    ∃ earlier past, run.after freshNodes earlier = .ok past ∧
      loop.saved = past.toGraphState.snapshot run.graph := by
  induction turns generalizing loop with
  | zero =>
      cases reached
      exact ⟨0, _, rfl, rfl⟩
  | succ turns induction =>
      rcases @after_ok run freshNodes idle_freshNodes turns with ⟨before, reached', steady⟩
      cases stands : run.finished before with
      | true =>
          cases (after_succ_of_finished reached' stands).symm.trans reached
          exact induction reached'
      | false =>
          have done := (after_succ_of_goesOn reached' stands).symm.trans reached
          rcases iterate_ok (run.world.turn turns) steady stands with
            ⟨next, done', _, _, saved, _⟩
          cases done'.symm.trans done
          rcases saved with same | now
          · rw [same]
            exact induction reached'
          · exact ⟨turns + 1, loop, reached, now⟩

/-- What a call leaves in the context when it is crashed: the graph as it was last saved,
in the loop or at the end of the call. -/
def Leaves (run : Execution) (snapshot : Snapshot) : Prop :=
  ∃ turns loop, run.after freshNodes turns = .ok loop ∧
    (snapshot = loop.saved ∨ (run.finished loop = true ∧ snapshot = (run.finish loop).2.saved))

/-- The states and attempts that are left are those after some number of turns. -/
theorem Leaves.exists_after {snapshot : Snapshot} (leaves : run.Leaves snapshot) :
    ∃ turns past, run.after freshNodes turns = .ok past ∧ ∀ id node, (id, node) ∈ snapshot →
      ∃ step ∈ run.graph.steps, step.id = id ∧ node.state = past.table id ∧
        node.attempts = (past.node id).attempts := by
  have read : ∀ state id node, (id, node) ∈ GraphState.snapshot run.graph state →
      ∃ step ∈ run.graph.steps, step.id = id ∧ node = state.node id := by
    intro state id node inside
    rcases List.mem_map.mp inside with ⟨step, listed, same⟩
    cases same
    exact ⟨step, listed, rfl, rfl⟩
  rcases leaves with ⟨turns, loop, reached, rfl | ⟨_, rfl⟩⟩
  · rcases saved_of_after reached with ⟨earlier, past, reached', saved⟩
    refine ⟨earlier, past, reached', fun id node inside => ?_⟩
    rcases read past.toGraphState id node (saved ▸ inside) with ⟨step, listed, same, rfl⟩
    exact ⟨step, listed, same, rfl, rfl⟩
  · refine ⟨turns, loop, reached, fun id node inside => ?_⟩
    rcases read (run.stampCompletion loop).toGraphState id node inside with
      ⟨step, listed, same, rfl⟩
    refine ⟨step, listed, same, congrFun (table_stampCompletion run loop) id, ?_⟩
    simp only [stampCompletion]
    split <;> rfl

theorem runTools_calls {step : PlanStep} (tools : List String) (position : Nat)
    (results : List ToolResult) (calls : List ToolCall) :
    calls.length ≤ (run.runTools step position tools results calls).calls.length ∧
      ((run.runTools step position tools results calls).ok = true → tools ≠ [] →
        calls.length < (run.runTools step position tools results calls).calls.length) := by
  induction tools generalizing position results calls with
  | nil =>
      simp only [runTools]
      split <;> simp
  | cons tool rest induction =>
      simp only [runTools]
      split
      · simp
      · split
        · simp
        · simp
        · split
          · rename_i result _ _
            have later := (induction (position + 1) (results ++ [result]) (calls ++ [{
              id := run.world.callId step.id position
              taskId := run.taskId
              tool
              arguments := run.mergedArguments step }])).1
            rw [List.length_append, List.length_singleton] at later
            exact ⟨by omega, fun _ _ => by omega⟩
          · simp

/-- A step that has tools and ends well has called one. -/
theorem exists_call {step : PlanStep} (tooled : step.tools ≠ [])
    (ok : (run.runNode step).ok = true) : ∃ call, call ∈ (run.runNode step).calls := by
  have some_ := (@runTools_calls run step step.tools 0 [] []).2 ok tooled
  exact List.exists_mem_of_length_pos some_

end Raphael.Agent.Executor.Execution

namespace Raphael.Agent.Orchestrator

open Core Agent.Executor

namespace SingleAgent

/-- Whatever call is crashed at whatever point, resuming it keeps its progress if and
only if there is none: no attempt was saved. -/
theorem keepsProgress_iff_unattempted {plan : Plan} {run : Execution} {snapshot : Snapshot}
    (built : TaskGraph.fromPlan plan = .ok run.graph) (left : run.Leaves snapshot) :
    KeepsProgress { plan := some plan, graph := snapshot } ↔
      ∀ id node, (id, node) ∈ snapshot → Unattempted run.graph id node := by
  rcases left.exists_after with ⟨turns, past, reached, saved⟩
  have steady := Execution.steady_of_after Execution.idle_freshNodes reached
  have resumes : ∀ taskId, resumeGraph taskId { plan := some plan, graph := snapshot } =
      .ok (run.graph, Execution.freshNodes) := fun _ => by
    simp only [resumeGraph, graphOf, built, bind, Except.bind]
    rfl
  constructor
  · intro keeps id node inside
    rcases saved id node inside with ⟨step, listed, rfl, state, attempts⟩
    have kept := keeps run Execution.freshNodes (resumes run.taskId) turns past reached
      step.id node inside
    by_cases succeeded : node.state = .succeeded
    · -- The resumed call can go as the crashed one did, and then calls the step's tools.
      refine .inr ⟨succeeded, fun other otherListed same => ?_⟩
      obtain rfl := TaskGraph.step_unique otherListed listed same
      by_contra tooled
      rcases steady.called other listed (state.symm.trans succeeded) with impossible | ⟨ok, made⟩
      · cases impossible
      · rcases Execution.exists_call tooled ok with ⟨call, member⟩
        exact kept.1 succeeded call (made call member)
    · have counted := steady.tracked.attempts step.id
      have same := kept.2 succeeded
      have fresh : (Execution.freshNodes step.id).attempts = 0 := rfl
      exact .inl (by omega)
  · intro unattempted resumed nodes started turns' loop' reached' id node inside
    obtain ⟨sameGraph, rfl⟩ : run.graph = resumed.graph ∧ Execution.freshNodes = nodes := by
      have same := Except.ok.inj ((resumes resumed.taskId).symm.trans started)
      exact ⟨congrArg Prod.fst same, congrArg Prod.snd same⟩
    have steady' := Execution.steady_of_after Execution.idle_freshNodes reached'
    rcases saved id node inside with ⟨step, listed, rfl, state, attempts⟩
    rcases unattempted step.id node inside with none | ⟨succeeded, untooled⟩
    · constructor
      · intro succeeded
        have ran : Schedule.replay (Execution.states Execution.freshNodes) past.changes step.id ∈
            Schedule.executed := by
          rw [← steady.tracked.table_eq, ← state, succeeded]
          simp [Schedule.executed]
        have started' := steady.tracked.accepted.starts_ne_zero (by
          simp [Execution.states, Execution.freshNodes, Schedule.executed]) ran
        have counted := steady.tracked.attempts step.id
        have fresh : (Execution.freshNodes step.id).attempts = 0 := rfl
        omega
      · intro _
        rw [steady'.tracked.attempts step.id, none]
        rfl
    · refine ⟨fun _ call made => ?_, fun other => absurd succeeded other⟩
      rcases steady'.own step.id call made with ⟨other, otherListed, same, member⟩
      rw [← sameGraph] at otherListed
      have none := untooled other otherListed same
      simp only [Execution.runNode, none, Execution.runTools] at member
      split at member <;> simp at member

/-- `a` has succeeded and `b` has not started when the process dies. -/
theorem succeededStep_called_again :
    ∃ snapshot, (Execution.eager Execution.twoSteps fun _ _ =>
        .returned { success := true }).Leaves snapshot ∧
      ¬ KeepsProgress { plan := some Execution.twoStepPlan, graph := snapshot } := by
  refine ⟨_, ⟨1, _, rfl, .inl rfl⟩, fun keeps => ?_⟩
  have again := (keeps (Execution.eager Execution.twoSteps fun _ _ => .returned { success := true })
    Execution.freshNodes rfl 1 _ rfl "a" _ (List.mem_cons_of_mem _ List.mem_cons_self)).1 rfl
  exact again _ List.mem_cons_self

/-- A crash before the first turn leaves nothing to repeat. -/
theorem keepsProgress_before_first_turn :
    KeepsProgress {
      plan := some Execution.twoStepPlan
      graph := ((Execution.eager Execution.twoSteps fun _ _ => .raised "down").start
        Execution.freshNodes).saved } :=
  (@keepsProgress_iff_unattempted Execution.twoStepPlan
    (Execution.eager Execution.twoSteps fun _ _ => .raised "down") _ rfl
    ⟨0, _, rfl, .inl rfl⟩).mpr (by
      intro id node inside
      rcases List.mem_map.mp inside with ⟨step, _, same⟩
      cases same
      exact .inl rfl)

end SingleAgent

end Raphael.Agent.Orchestrator
