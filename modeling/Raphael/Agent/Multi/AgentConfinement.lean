import Raphael.Agent.Executor.ParallelExecutor
import Raphael.Agent.Multi.AgentManager
import Raphael.Tools.AuthorizedInvocations

/-! # The confinement of an agent

What the runner of an agent invokes: no tool outside its allow-list, and nothing above
its risk profile but on an approval. The scope and the floor of the approvals come from
the policy that `scoped_runner` derives; the risk is that of the call. -/

namespace Raphael.Agent.Multi

open Core
open Security
open Tools

/-- The invocation stays inside the scope of the agent. -/
structure Confined (externals : RunnerExternals) (runner : ToolRunner)
    (definition : AgentDefinition) (call : ToolCall) (invocation : Invocation)
    (approvals : Option ApprovalStore) : Prop where
  allowed : invocation.tool.name ∈ definition.allowedTools
  called : invocation.tool.name = call.tool ∧ invocation.arguments = call.arguments
  licensed :
    levelOrder (runner.level externals call invocation.tool) ≤
        levelOrder definition.riskProfile ∨
      runner.ExactlyApproved call invocation.tool approvals

namespace AgentManager

variable (externals : RunnerExternals) (manager : AgentManager) (agentId : String)
  (definition : AgentDefinition) (call : ToolCall)

/-- What has happened to the store of the approvals, if the manager was given one. -/
def approvalHistory (history : ToolRunner.StoreHistory) :
    Option ToolRunner.StoreHistory :=
  if manager.keepsApprovals then some history else none

/-- Whatever happened to the approvals before and happens to them meanwhile, what the
runner of the agent invokes for the call stays inside the scope of the agent. -/
def ConfinesInvocations : Prop :=
  ∀ (history : ToolRunner.StoreHistory) (ledger : Option ExecutionLedger)
    (seenIds : List String) (surroundings : Surroundings) (invocation : Invocation),
    let runner := manager.runnerFor agentId definition
    let ended := (runner.run externals surroundings
      (ToolRunner.opening externals call (manager.approvalHistory history) ledger
        seenIds)).2
    invocation ∈ ended.invocations →
    runner.DistinguishesActions externals call invocation.tool ended.approvals →
    Confined externals runner definition call invocation ended.approvals

/-- The call is above the risk profile of the agent, and passes every check up to the
gate of an approval store. -/
def ReachesAboveProfile : Prop :=
  manager.keepsApprovals = true ∧
  ∃ tool, ToolRunner.Screened externals (manager.runnerFor agentId definition) call tool ∧
    (manager.runnerFor agentId definition).ruledOut externals call tool = false ∧
    (manager.runnerFor agentId definition).needsHuman externals call tool = true ∧
    levelOrder definition.riskProfile <
      levelOrder ((manager.runnerFor agentId definition).level externals call tool) ∧
    (tool.requiresSandbox = true →
      (manager.runnerFor agentId definition).hasProfile tool = true)

variable {externals manager agentId definition call}

/-- A tool outside the allow-list is ruled out for the agent. -/
theorem allowed_of_not_ruledOut {tool : Tool}
    (allowed : (manager.runnerFor agentId definition).ruledOut externals call tool = false) :
    tool.name ∈ definition.allowedTools := by
  have acts : (manager.runnerFor agentId definition).authorizer.effectiveAgent
      (manager.runnerFor agentId definition).authorizer.context.agentId = agentId := by
    change (if agentId == "" then agentId else agentId) = agentId
    exact ite_self agentId
  have scope : (manager.scopedPolicy agentId definition).scope agentId =
      some definition.allowedTools := by
    simp [Policy.scope, scopedPolicy]
  unfold ToolRunner.ruledOut at allowed
  rw [acts] at allowed
  change (manager.scopedPolicy agentId definition).hardDenied agentId tool.name _ = false
    at allowed
  simp only [Policy.hardDenied, Policy.outsideScope, scope, Bool.or_eq_false_iff,
    Bool.not_eq_false', List.contains_iff_mem] at allowed
  exact allowed.1.2

/-- A call of a task, and a call that no approval takes above the risk profile, is
invoked inside the scope of the agent. -/
theorem confines_of_named
    (sound : call.taskId ≠ "" ∨
      ¬ manager.ReachesAboveProfile externals agentId definition call) :
    manager.ConfinesInvocations externals agentId definition call := by
  intro history ledger seenIds surroundings invocation runner ended invoked distinguishes
  have fresh : (ToolRunner.opening externals call (manager.approvalHistory history) ledger
      seenIds).invocations = [] := rfl
  rcases ToolRunner.run_invoked fresh invoked with ⟨gated, led⟩
  refine ⟨allowed_of_not_ruledOut gated.licensed.allowed,
    ⟨ToolRegistry.get_name gated.screened.registered, gated.arguments⟩, ?_⟩
  by_cases within : levelOrder (runner.level externals call invocation.tool) ≤
      levelOrder definition.riskProfile
  · exact .inl within
  · refine .inr ?_
    rcases gated.licensed.licence with ⟨_, granted⟩ | ⟨human, holds⟩
    · exact absurd granted within
    · rcases sound with named | unreached
      · have authorized := ToolRunner.authorizes_of_named (.inl named) _ ledger seenIds
          surroundings invocation invoked distinguishes
        rcases authorized.licence with ⟨free, _⟩ | ⟨_, approved⟩
        · cases human.symm.trans free
        · exact approved
      · -- An approval stands in a store, which the manager was then given.
        rcases holds with ⟨store, _, _, reached, _⟩
        have keeps : manager.keepsApprovals = true := by
          by_contra none
          rw [reached] at led
          simp only [approvalHistory, none] at led
          cases led
        exact absurd ⟨keeps, invocation.tool, gated.screened, gated.licensed.allowed, human,
          Nat.lt_of_not_le within, gated.profiled⟩ unreached

/-- A call for no task is taken above the risk profile by the approval of another task. -/
theorem escapes_of_noTask (noTask : call.taskId = "")
    (reaches : manager.ReachesAboveProfile externals agentId definition call) :
    ¬ manager.ConfinesInvocations externals agentId definition call := by
  intro confines
  rcases reaches with ⟨keeps, tool, screened, allowed, human, above, profiled⟩
  rcases ToolRunner.foreignApproval_invokes noTask screened allowed human profiled with
    ⟨approvals, invocation, invoked, rfl⟩
  have confined := confines { operations := [ToolRunner.foreignRequest
    (manager.runnerFor agentId definition) call invocation.tool] } none []
    ToolRunner.humanApproves invocation
  unfold approvalHistory at confined
  rw [if_pos keeps] at confined
  have within := confined invoked (approvals ▸ ToolRunner.distinguishes_foreign)
  rcases within.licensed with low | approved
  · exact absurd low (Nat.not_le_of_lt above)
  · rw [approvals] at approved
    exact ToolRunner.not_exactlyApproved_foreign noTask approved

/-- What the runner of an agent invokes stays inside the scope of the agent exactly when
the call is of a task, or no approval can take it above the risk profile. -/
theorem confinesInvocations_iff :
    manager.ConfinesInvocations externals agentId definition call ↔
      call.taskId ≠ "" ∨
        ¬ manager.ReachesAboveProfile externals agentId definition call := by
  constructor
  · intro confines
    by_contra unsound
    simp only [not_or, ne_eq, not_not] at unsound
    exact escapes_of_noTask unsound.1 unsound.2 confines
  · exact confines_of_named

/-- The executor asks for the tools of a plan in the name of its task. -/
theorem calls_of_task {run : Executor.Execution} {step : PlanStep} (tools : List String)
    (position : Nat) (results : List ToolResult) (calls : List ToolCall)
    (before : ∀ call ∈ calls, call.taskId = run.taskId) :
    ∀ call ∈ (run.runTools step position tools results calls).calls,
      call.taskId = run.taskId := by
  induction tools generalizing position results calls with
  | nil =>
      simp only [Executor.Execution.runTools]
      split <;> exact before
  | cons tool rest induction =>
      have asked : ∀ other ∈ calls ++ [{
          id := run.world.callId step.id position
          taskId := run.taskId
          tool
          arguments := run.mergedArguments step }], other.taskId = run.taskId := by
        intro other member
        rcases List.mem_append.mp member with earlier | last
        · exact before other earlier
        · rw [List.mem_singleton.mp last]
      simp only [Executor.Execution.runTools]
      split
      · exact before
      · split
        · exact before
        · exact asked
        · split
          · exact induction _ _ _ asked
          · exact asked

/-- The plan of an agent task stays inside the scope of its agent. -/
theorem confines_plan {run : Executor.Execution} (named : run.taskId ≠ "")
    {step : PlanStep} {call : ToolCall} (asked : call ∈ (run.runNode step).calls) :
    manager.ConfinesInvocations externals agentId definition call := by
  apply confines_of_named
  have ofTask := calls_of_task step.tools 0 [] [] (fun _ member =>
    (List.not_mem_nil member).elim) call asked
  exact .inl (ofTask ▸ named)

/-! ## A call for no task -/

/-- An agent that may call `notes.delete`, up to the risk MEDIUM. -/
def coder : AgentDefinition where
  id := "coder"
  allowedTools := ["notes.delete"]

def notesManager : AgentManager where
  agents := ⟨"agent_definitions", [coder], List.nodup_singleton _⟩
  tools := ToolRunner.notesRunner.registry
  keepsApprovals := true

/-- The call is CRITICAL, and is invoked on the approval of another task. -/
theorem noTaskCall_escapes :
    notesManager.scopedRunner "coder" = .ok (notesManager.runnerFor "coder" coder) ∧
    ¬ notesManager.ConfinesInvocations ToolRunner.plainExternals "coder" coder
      ToolRunner.notesCall := by
  refine ⟨rfl, escapes_of_noTask rfl ⟨rfl, ToolRunner.notesTool, ?_, ?_, ?_, ?_, ?_⟩⟩
  · exact ⟨rfl, by decide, rfl, rfl⟩
  · decide +kernel
  · decide +kernel
  · decide +kernel
  · decide

end AgentManager

end Raphael.Agent.Multi
