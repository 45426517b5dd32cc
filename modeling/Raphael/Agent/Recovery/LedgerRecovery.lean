import Raphael.Agent.Executor.ServedExecution
import Raphael.Agent.Recovery.DeniedExecutions

/-! # Recovery over the durable ledger

The engine over the executor, the runner and the ledger. Without a ledger, a plan whose
tools fail for a while is retried till it completes. With a ledger, no action is accepted
again, whether it has failed or succeeded: only a first execution that completes is left. -/

namespace Raphael.Agent.Recovery

open Core Foundation
open Agent.Executor
open Security
open Tools

namespace RecoveryRun

variable {World : Type u} {run : RecoveryRun World} {plan : Plan}
  {loop : RecoveryLoop World} {result : ExecutionResult} {world : World}

/-! ## One turn -/

/-- The verification returns, leaves the world, and passes an execution that is complete. -/
def Verifies (run : RecoveryRun World) (plan : Plan) : Prop :=
  ∀ (result : ExecutionResult) (world : World), ∃ verification,
    run.calls.verifyFn run.taskId plan result world = (.ok verification, world) ∧
    (result.status = .completed → verification.status = .passed)

/-- No action of the policy is overridden. -/
def Plain (run : RecoveryRun World) : Prop :=
  ∀ failureClass, run.engine.policy.overrides failureClass = none

/-- The loop is about to execute the plan. -/
structure Executes (run : RecoveryRun World) (plan : Plan) (loop : RecoveryLoop World)
    (result : ExecutionResult) (world : World) : Prop where
  current : loop.current = plan
  absent : loop.result = none
  budget : loop.executions < run.maxAttempts
  executes : run.calls.executeFn plan run.arguments loop.world = (.ok result, world)
  going : result.status ≠ .cancelled

/-- The loop is about to try the plan once more. -/
structure Retried (plan : Plan) (loop : RecoveryLoop World) (world : World)
    (next : RecoveryLoop World) : Prop where
  current : next.current = plan
  absent : next.result = none
  world : next.world = world
  retries : next.retries = loop.retries + 1
  executions : next.executions = loop.executions + 1

theorem turn_eq_decide (verifies : run.Verifies plan)
    (executes : run.Executes plan loop result world) :
    ∃ verification next, run.turn loop = run.decide next result verification ∧
      (result.status = .completed → verification.status = .passed) ∧
      Retried plan loop world (again { next with retries := next.retries + 1 }) ∧
      next.retries = loop.retries := by
  rcases verifies result world with ⟨verification, verified, passed⟩
  unfold turn
  simp only [executes.absent, executes.current, executes.executes, executes.going,
    not_le.mpr executes.budget, if_false]
  unfold verify
  simp only [verified]
  refine ⟨verification, _, rfl, passed, ?_, rfl⟩
  exact ⟨rfl, rfl, rfl, rfl, rfl⟩

/-- A turn that completes the plan ends the recovery. -/
theorem turn_completed (verifies : run.Verifies plan)
    (executes : run.Executes plan loop result world) (completed : result.status = .completed) :
    ∃ outcome final, run.turn loop = .ended (.ok outcome) final ∧
      outcome.status = .recovered := by
  rcases turn_eq_decide verifies executes with ⟨verification, next, turned, passed, _⟩
  have passes : RecoveryRun.passes result verification = true := by
    simp [RecoveryRun.passes, completed, passed completed]
  rw [turned]
  unfold RecoveryRun.decide
  rw [if_pos passes]
  exact ⟨_, _, rfl, rfl⟩

/-- A tool has failed, so that the action is a retry or an escalation. -/
theorem actionFor_of_failed (plain : run.Plain) {failed : ToolResult}
    (member : failed ∈ result.allToolResults) (failure : failed.success = false)
    (verification : VerificationResult) (retries replans : Nat) :
    run.engine.policy.actionFor (run.classify result verification) retries replans = .retry ∨
      (run.engine.policy.actionFor (run.classify result verification) retries replans =
          .escalate ∧
        (NamesDenial run.externals.platform.lower result ∨
          run.engine.policy.retries.maxAttempts ≤ retries)) := by
  unfold RecoveryPolicy.actionFor RetryPolicy.shouldRetry
  by_cases names : NamesDenial run.externals.platform.lower result
  · have permission := classify_of_namesDenial names verification
    exact .inr ⟨by simp [plain _, permission], .inl names⟩
  · rcases classify_of_not_namesDenial names member failure verification with
      ⟨retryable, other⟩
    by_cases left : retries < run.engine.policy.retries.maxAttempts
    · exact .inl (by simp [plain _, retryable, other, left])
    · exact .inr ⟨by simp [plain _, retryable, other, left], .inr (Nat.le_of_not_lt left)⟩

/-- A turn in which a tool fails tries the plan again, or ends the recovery. -/
theorem turn_failed (plain : run.Plain) (verifies : run.Verifies plan)
    (executes : run.Executes plan loop result world) (unfinished : result.status ≠ .completed)
    {failed : ToolResult} (member : failed ∈ result.allToolResults)
    (failure : failed.success = false) :
    (∃ next, run.turn loop = .goesOn next ∧ Retried plan loop world next) ∨
      ((NamesDenial run.externals.platform.lower result ∨
          run.engine.policy.retries.maxAttempts ≤ loop.retries) ∧
        ∃ outcome final, run.turn loop = .ended (.ok outcome) final ∧
          outcome.status ≠ .recovered) := by
  rcases turn_eq_decide verifies executes with
    ⟨verification, next, turned, _, retried, retries⟩
  have passes : RecoveryRun.passes result verification = false := by
    simp [RecoveryRun.passes, unfinished]
  rw [turned]
  unfold RecoveryRun.decide
  simp only [passes, Bool.false_eq_true, if_false]
  rcases actionFor_of_failed plain member failure verification next.retries next.replans with
    action | ⟨action, spent⟩
  · rw [action]
    exact .inl ⟨_, rfl, retried.current, rfl, retried.world, retried.retries,
      retried.executions⟩
  · rw [action]
    rw [retries] at spent
    exact .inr ⟨spent, _, _, rfl, OutcomeStatus.noConfusion⟩

/-! ## Runs of the loop -/

/-- The loop is about to execute the plan, in some world. -/
structure Starts (plan : Plan) (loop : RecoveryLoop World) : Prop where
  current : loop.current = plan
  absent : loop.result = none

theorem Retried.starts {next : RecoveryLoop World} (retried : Retried plan loop world next) :
    Starts plan next := ⟨retried.current, retried.absent⟩

/-- Where every execution completes, or fails with a tool and leaves fewer failures, the
budgets for these failures recover the plan. -/
theorem recovered_of_fewer (plain : run.Plain) (verifies : run.Verifies plan)
    {Left : Nat → World → Prop}
    (step : ∀ left world, Left left world → ∃ result after,
      run.calls.executeFn plan run.arguments world = (.ok result, after) ∧
      result.status ≠ .cancelled ∧
      (result.status = .completed ∨
        (∃ failed ∈ result.allToolResults, failed.success = false) ∧
          ¬ NamesDenial run.externals.platform.lower result ∧
          ∃ fewer < left, Left fewer after))
    {turns left : Nat} (holds : Left left loop.world) (starts : Starts plan loop)
    (attempts : loop.executions + left < run.maxAttempts)
    (retries : loop.retries + left ≤ run.engine.policy.retries.maxAttempts)
    (enough : left < turns) :
    ∃ outcome final, run.loopFor turns loop = some (.ok outcome, final) ∧
      outcome.status = .recovered := by
  induction turns generalizing left loop with
  | zero => exact absurd enough (Nat.not_lt_zero _)
  | succ turns induction =>
      rcases step left loop.world holds with ⟨result, after, executed, going, ends⟩
      have executes : run.Executes plan loop result after :=
        ⟨starts.current, starts.absent, by omega, executed, going⟩
      unfold loopFor
      by_cases completed : result.status = .completed
      · rcases turn_completed verifies executes completed with
          ⟨outcome, final, turned, recovered⟩
        rw [turned]
        exact ⟨outcome, final, rfl, recovered⟩
      · rcases ends.resolve_left completed with
          ⟨⟨failed, member, failure⟩, silent, fewer, below, later⟩
        rcases turn_failed plain verifies executes completed member failure with
          ⟨next, turned, retried⟩ | ⟨spent, _⟩
        · have attempted := retried.executions
          have again := retried.retries
          rw [turned]
          apply induction (retried.world ▸ later) retried.starts
          · omega
          · omega
          · omega
        · exact absurd spent (not_or.mpr ⟨silent, by omega⟩)

/-- Where every execution fails with a tool, and leads to another such, the plan is not
recovered. -/
theorem not_recovered_of_lost (plain : run.Plain) (verifies : run.Verifies plan)
    {Lost : World → Prop}
    (step : ∀ world, Lost world → ∃ result after,
      run.calls.executeFn plan run.arguments world = (.ok result, after) ∧
      result.status ≠ .cancelled ∧ result.status ≠ .completed ∧
      (∃ failed ∈ result.allToolResults, failed.success = false) ∧ Lost after)
    {turns : Nat} {answer : Except Error RecoveryOutcome} {final : RecoveryLoop World}
    (lost : Lost loop.world) (starts : Starts plan loop)
    (ended : run.loopFor turns loop = some (answer, final)) :
    ∃ outcome, answer = .ok outcome ∧ outcome.status ≠ .recovered := by
  induction turns generalizing loop with
  | zero => cases ended
  | succ turns induction =>
      unfold loopFor at ended
      by_cases budget : loop.executions < run.maxAttempts
      · rcases step loop.world lost with
          ⟨result, after, executed, going, unfinished, ⟨failed, member, failure⟩, later⟩
        have executes : run.Executes plan loop result after :=
          ⟨starts.current, starts.absent, budget, executed, going⟩
        rcases turn_failed plain verifies executes unfinished member failure with
          ⟨next, turned, retried⟩ | ⟨_, outcome, last, turned, status⟩
        · rw [turned] at ended
          exact induction (retried.world ▸ later) retried.starts ended
        · rw [turned] at ended
          cases ended
          exact ⟨outcome, rfl, status⟩
      · have exhausted : run.turn loop =
            run.ends loop .failed "attempt budget exhausted" := by
          unfold turn
          simp only [starts.absent]
          exact if_pos (Nat.le_of_not_lt budget)
        rw [exhausted] at ended
        cases ended
        exact ⟨_, rfl, OutcomeStatus.noConfusion⟩

theorem loopFor_start (plan : Plan) (world : World) :
    run.loopFor (run.maxAttempts + 2) (run.start plan none none world) =
      some (run.conclude plan none none world) :=
  runWithPrior_eq_conclude run plan none none world

end RecoveryRun

/-! ## The engine over the tools -/

/-- The engine over the executor and its runner, for a plan that the executor accepts. -/
structure OverTools (run : RecoveryRun SharedTools) (tools : ToolExecutor)
    (contract : String → Tool) (failures : String → Nat) (plan : Plan) : Prop where
  executes : run.calls.executeFn = tools.execute
  verifies : run.Verifies plan
  plain : run.Plain
  accepts : ∃ graph, (∀ shared, tools.prepare plan shared = .ok graph) ∧
    tools.Flaky run.externals.platform.lower contract failures run.arguments graph ∧
    ∀ shared, tools.Scheduled run.arguments graph shared

/-- The tools that the plan names, each once. -/
def toolsOf (plan : Plan) : List String := (plan.steps.flatMap (·.tools)).dedup

/-- The failures that the tools of a plan have left. -/
def failuresLeft (failures : String → Nat) (plan : Plan) (shared : SharedTools) : Nat :=
  ((toolsOf plan).map fun tool => failures tool - shared.invoked tool).sum

/-- The retries and the attempts cover the failures that are left. -/
structure Covers (run : RecoveryRun SharedTools) (failures : String → Nat) (plan : Plan)
    (shared : SharedTools) : Prop where
  retries : failuresLeft failures plan shared ≤ run.engine.policy.retries.maxAttempts
  attempts : failuresLeft failures plan shared < run.maxAttempts

/-- A first execution has no failures before it, and no row of a ledger in its way. -/
structure Unhindered (tools : ToolExecutor) (contract : String → Tool)
    (failures : String → Nat) (arguments : Arguments) (plan : Plan) (shared : SharedTools)
    (rows : ExecutionLedger) : Prop where
  served : ∀ step ∈ plan.steps, ∀ tool ∈ step.tools, failures tool ≤ shared.invoked tool
  distinct : ((tools.actions contract arguments plan.steps).map (·.key)).Nodup
  fresh : ∀ action ∈ tools.actions contract arguments plan.steps, rows action.key = none

variable {run : RecoveryRun SharedTools} {tools : ToolExecutor} {contract : String → Tool}
  {failures : String → Nat} {plan : Plan} {arguments : Arguments} {shared : SharedTools}
  {rows : ExecutionLedger}

theorem mem_actions {action : ServiceRequest String String} :
    action ∈ tools.actions contract arguments plan.steps ↔
      ∃ step ∈ plan.steps, ∃ tool ∈ step.tools,
        tools.action contract arguments step tool = action := by
  simp [ToolExecutor.actions]

theorem kind_mem_toolsOf {action : ServiceRequest String String}
    (member : action ∈ tools.actions contract arguments plan.steps) :
    action.kind ∈ toolsOf plan := by
  rcases mem_actions.mp member with ⟨step, listed, tool, used, rfl⟩
  exact List.mem_dedup.mpr (List.mem_flatMap.mpr ⟨step, listed, used⟩)

/-- The service is ready for the plan where nothing hinders the first execution. -/
theorem ready_iff_unhindered (held : shared.ledger = some rows) :
    (ToolExecutor.stock shared).Ready failures
        (tools.actions contract arguments plan.steps) ↔
      Unhindered tools contract failures arguments plan shared rows := by
  have refuses : ∀ key, (ToolExecutor.stock shared).Refuses key ↔ rows key ≠ none := by
    intro key
    rw [ToolExecutor.refuses_stock, held, Option.bind_some]
    exact Option.isSome_iff_exists.symm.trans Option.isSome_iff_ne_none
  constructor
  · intro ready
    constructor
    · intro step listed tool used
      exact ready.served _ (mem_actions.mpr ⟨step, listed, tool, used, rfl⟩)
    · apply ready.distinct
      simp [ToolExecutor.stock, held]
    · intro action member
      by_contra row
      exact ready.fresh action member ((refuses _).mpr row)
  · intro unhindered
    constructor
    · intro action member
      rcases mem_actions.mp member with ⟨step, listed, tool, used, rfl⟩
      exact unhindered.served step listed tool used
    · exact fun _ => unhindered.distinct
    · intro action member refused
      exact (refuses _).mp refused (unhindered.fresh action member)

/-- An execution of the plan by the callables of the engine. -/
theorem OverTools.executed (built : OverTools run tools contract failures plan)
    (shared : SharedTools) :
    ∃ result left, run.calls.executeFn plan run.arguments shared = (.ok result, left) ∧
      ToolExecutor.Executed tools run.externals.platform.lower contract failures
        run.arguments plan.steps shared result left := by
  rcases built.accepts with ⟨graph, prepared, flaky, scheduled⟩
  rw [built.executes]
  exact ToolExecutor.execute_executed (prepared shared) flaky (scheduled shared)

theorem not_cancelled {result : ExecutionResult}
    (executed : ToolExecutor.Executed tools run.externals.platform.lower contract failures
      arguments plan.steps shared result left) : result.status ≠ .cancelled := by
  by_cases completed : result.status = .completed
  · rw [completed]
    decide
  · rw [(executed.failed completed).1]
    decide

/-- Without a ledger, an execution that does not complete uses up a failure. -/
theorem fewer_of_keyless {result : ExecutionResult} {left : SharedTools}
    (executed : ToolExecutor.Executed tools run.externals.platform.lower contract failures
      arguments plan.steps shared result left)
    (keyless : shared.ledger = none) (unfinished : result.status ≠ .completed) :
    left.ledger = none ∧ failuresLeft failures plan left < failuresLeft failures plan shared := by
  rcases executed.serves with ⟨requests, inside, served, unanswered⟩
  have spent : (ToolExecutor.stock shared).spent = none := by
    simp [ToolExecutor.stock, keyless]
  constructor
  · rw [ToolExecutor.ledger_eq_none_iff, served, FlakyService.isSome_spent_serve, spent]
    rfl
  · change (ToolExecutor.stock left).left failures (toolsOf plan) < _
    rw [served]
    apply FlakyService.left_serve_lt spent _ (unanswered unfinished)
    exact fun request member => kind_mem_toolsOf (inside member)

/-- With a ledger, an execution that does not complete leaves the plan unready. -/
theorem lost_of_keyed {result : ExecutionResult} {left : SharedTools}
    (executed : ToolExecutor.Executed tools run.externals.platform.lower contract failures
      arguments plan.steps shared result left)
    (keyed : shared.ledger ≠ none) (unfinished : result.status ≠ .completed) :
    left.ledger ≠ none ∧ ¬(ToolExecutor.stock left).Ready failures
      (tools.actions contract arguments plan.steps) := by
  rcases executed.serves with ⟨requests, inside, served, unanswered⟩
  have spent : (ToolExecutor.stock shared).spent.isSome = true := by
    simpa [ToolExecutor.stock, Option.isSome_iff_ne_none] using keyed
  have some_ : requests ≠ [] := by
    rintro rfl
    exact unanswered unfinished trivial
  constructor
  · intro none
    rw [ToolExecutor.ledger_eq_none_iff, served, FlakyService.isSome_spent_serve, spent] at none
    cases none
  · rw [served]
    exact FlakyService.not_ready_serve spent some_ inside

/-- Without a ledger, or ready, every execution completes or uses up a failure. -/
theorem OverTools.recoverable (built : OverTools run tools contract failures plan)
    (left : Nat) (shared : SharedTools)
    (holds : (shared.ledger = none ∨ (ToolExecutor.stock shared).Ready failures
      (tools.actions contract run.arguments plan.steps)) ∧
        failuresLeft failures plan shared = left) :
    ∃ result after, run.calls.executeFn plan run.arguments shared = (.ok result, after) ∧
      result.status ≠ .cancelled ∧
      (result.status = .completed ∨
        (∃ failed ∈ result.allToolResults, failed.success = false) ∧
          ¬ NamesDenial run.externals.platform.lower result ∧
          ∃ fewer < left, (after.ledger = none ∨ (ToolExecutor.stock after).Ready failures
            (tools.actions contract run.arguments plan.steps)) ∧
              failuresLeft failures plan after = fewer) := by
  rcases holds with ⟨ready, rfl⟩
  rcases built.executed shared with ⟨result, after, executes, executed⟩
  refine ⟨result, after, executes, not_cancelled executed, ?_⟩
  by_cases completed : result.status = .completed
  · exact .inl completed
  · have keyless : shared.ledger = none :=
      ready.resolve_right fun ready => completed (executed.completed_iff.mpr ready)
    rcases fewer_of_keyless executed keyless completed with ⟨still, fewer⟩
    refine .inr ⟨(executed.failed completed).2, ?_, _, fewer, .inl still, rfl⟩
    rintro ⟨denied, reported, named⟩
    rw [executed.undenied keyless denied reported] at named
    cases named

/-- With a ledger and unready, every execution fails and leads to such a state again. -/
theorem OverTools.lost (built : OverTools run tools contract failures plan)
    (shared : SharedTools)
    (holds : shared.ledger ≠ none ∧ ¬(ToolExecutor.stock shared).Ready failures
      (tools.actions contract run.arguments plan.steps)) :
    ∃ result after, run.calls.executeFn plan run.arguments shared = (.ok result, after) ∧
      result.status ≠ .cancelled ∧ result.status ≠ .completed ∧
      (∃ failed ∈ result.allToolResults, failed.success = false) ∧
      (after.ledger ≠ none ∧ ¬(ToolExecutor.stock after).Ready failures
        (tools.actions contract run.arguments plan.steps)) := by
  rcases holds with ⟨keyed, unready⟩
  rcases built.executed shared with ⟨result, after, executes, executed⟩
  have unfinished : result.status ≠ .completed := fun completed =>
    unready (executed.completed_iff.mp completed)
  exact ⟨result, after, executes, not_cancelled executed, unfinished,
    (executed.failed unfinished).2, lost_of_keyed executed keyed unfinished⟩

/-- Where the budgets cover the failures that are left, a recovery without a ledger always
ends RECOVERED; with a ledger it does exactly where nothing hinders the first execution. -/
theorem recovered_iff_unhindered (built : OverTools run tools contract failures plan)
    (shared : SharedTools) (covers : Covers run failures plan shared) :
    ∃ outcome, (run.conclude plan none none shared).1 = .ok outcome ∧
      (outcome.status = .recovered ↔ ∀ rows, shared.ledger = some rows →
        Unhindered tools contract failures run.arguments plan shared rows) := by
  have ended := @RecoveryRun.loopFor_start _ run plan shared
  have starts : RecoveryRun.Starts plan (run.start plan none none shared) := ⟨rfl, rfl⟩
  have attempts := covers.attempts
  have retries := covers.retries
  by_cases ready : shared.ledger = none ∨ (ToolExecutor.stock shared).Ready failures
      (tools.actions contract run.arguments plan.steps)
  · have unhindered : ∀ rows, shared.ledger = some rows →
        Unhindered tools contract failures run.arguments plan shared rows := by
      intro rows held
      rcases ready with keyless | ready
      · cases keyless.symm.trans held
      · exact (ready_iff_unhindered held).mp ready
    have recovered : ∃ outcome final, run.loopFor (run.maxAttempts + 2)
        (run.start plan none none shared) = some (.ok outcome, final) ∧
        outcome.status = .recovered := by
      apply RecoveryRun.recovered_of_fewer built.plain built.verifies built.recoverable
        (show _ ∧ failuresLeft failures plan shared = failuresLeft failures plan shared from
          ⟨ready, rfl⟩) starts
      · exact (Nat.zero_add _).trans_lt attempts
      · exact (Nat.zero_add _).trans_le retries
      · omega
    rcases recovered with ⟨outcome, final, recovered, status⟩
    have same := Option.some.inj (ended.symm.trans recovered)
    exact ⟨outcome, congrArg Prod.fst same, iff_of_true status unhindered⟩
  · rcases not_or.mp ready with ⟨keyed, unready⟩
    rcases RecoveryRun.not_recovered_of_lost built.plain built.verifies built.lost
      ⟨keyed, unready⟩ starts ended with ⟨outcome, isOutcome, status⟩
    refine ⟨outcome, isOutcome, iff_of_false status fun unhindered => unready ?_⟩
    rcases Option.ne_none_iff_exists'.mp keyed with ⟨rows, held⟩
    exact (ready_iff_unhindered held).mpr (unhindered rows held)

/-! ## A tool that fails once -/

def fetchTool : Tool where
  name := "fetch"

/-- The first invocation of the handler reports a failure. -/
def fetchRegistry (invoked : String → Nat) : ToolRegistry where
  entries := [{
    tool := fetchTool
    handler := fun _ =>
      if 1 ≤ invoked "fetch" then .result { success := true }
      else .result { error := some "connection reset" } }]

/-- An id that is longer than all that were seen. -/
def freshId (seenIds : List String) : String :=
  String.ofList (List.replicate ((seenIds.map String.length).sum + 1) 'c')

theorem freshId_not_mem (seenIds : List String) : freshId seenIds ∉ seenIds := by
  intro member
  have bounded := List.le_sum_of_mem (List.mem_map.mpr ⟨_, member, rfl⟩ :
    (freshId seenIds).length ∈ seenIds.map String.length)
  simp [freshId] at bounded

def fetchTools : ToolExecutor where
  externals := ToolRunner.plainExternals
  executor := { maxConcurrency := 2 }
  runner := fun invoked =>
    { registry := fetchRegistry invoked
      authorizer := { registry := fetchRegistry invoked }
      sandbox := fun _ handler => handler }
  taskId := "task"
  schedule := fun shared =>
    { world :=
        { turn := fun _ => { completed := ["s1"] }
          reply := fun _ _ => .returned {}
          callId := fun _ _ => freshId shared.seenIds }
      turns := 1
      order := [("s1", 0)]
      surroundings := fun _ => { clock := fun _ => 0, polls := 0 } }

def fetchStep : PlanStep where
  id := "s1"
  description := "fetch the page"
  tools := ["fetch"]
  verification := "the page is there"
  completionCriteria := "the page is fetched"

def fetchPlan : Plan where
  id := "plan-1"
  goal := "fetch the page"
  steps := [fetchStep]
  finalVerification := "the page is there"

/-- An execution verifies when it is complete. -/
def fetchRun : RecoveryRun SharedTools where
  externals :=
    { platform := ToolRunner.plainExternals.platform
      identity := { modelDumpJson := fun _ => "plan-1", sha256 := id } }
  engine := {}
  calls :=
    { executeFn := fetchTools.execute
      verifyFn := fun _ _ result shared =>
        (.ok { status := if result.status = .completed then .passed else .failed }, shared) }
  taskId := "task"

def fetchGraph : TaskGraph where
  steps := fetchPlan.steps
  uniqueIds := by decide
  knownDependencies := by
    intro step member dependency named
    rw [List.mem_singleton.mp member] at named
    cases named

def fetchFailures (_ : String) : Nat := 1

theorem fetch_registered (invoked : String → Nat) :
    (fetchTools.runner invoked).registry.get "fetch" = some fetchTool := rfl

theorem fetch_granted (before current : SharedTools) :
    let attempt := fetchTools.schedule before
    let call := (fetchTools.unanswered [] fetchGraph attempt).callAt fetchStep 0 "fetch"
    ∃ screened permission permitted,
      ToolRunner.screen fetchTools.externals (attempt.surroundings ("s1", 0))
        (fetchTools.runner current.invoked) (ToolExecutor.opening call current) =
          .ok (fetchTool, screened) ∧
      ToolRunner.permit fetchTools.externals (attempt.surroundings ("s1", 0))
        (fetchTools.runner current.invoked) fetchTool screened =
          .ok (permission, permitted) := by
  intro attempt call
  have screened : ToolRunner.Screened fetchTools.externals
      (fetchTools.runner current.invoked) (ToolExecutor.opening call current).call
      fetchTool := ⟨rfl, nofun, rfl, rfl⟩
  rcases @ToolRunner.permit_of_free fetchTools.externals (attempt.surroundings ("s1", 0))
      (fetchTools.runner current.invoked) _ _ screened.behind rfl rfl rfl rfl with
    ⟨permission, permitted⟩
  exact ⟨_, permission, _, ToolRunner.screen_eq_ok screened rfl, permitted⟩

theorem fetch_flaky : fetchTools.Flaky fetchRun.externals.platform.lower
    (fun _ => fetchTool) fetchFailures [] fetchGraph := by
  have only : ∀ step ∈ fetchGraph.steps, step = fetchStep := fun step listed =>
    List.mem_singleton.mp listed
  constructor
  · intro invoked step listed tool used
    rw [only step listed] at used
    rw [List.mem_singleton.mp used]
    exact fetch_registered invoked
  · intro before current step listed position tool named
    cases only step listed
    cases position with
    | zero =>
        cases named
        exact fetch_granted before current
    | succ position => cases named
  · intro _ _ _ _ _ sandboxed
    cases sandboxed
  · intro invoked step listed tool used handler found identity crash state isTool
    cases only step listed
    cases List.mem_singleton.mp used
    cases found
    have undenied : Text.contains "denied" "connection reset" = false := by decide +kernel
    by_cases served : 1 ≤ invoked "fetch"
    · exact ⟨{ taskId := state.call.taskId, toolCallId := state.call.id, success := true },
        congrArg (fun outcome => (ToolRunner.finish fetchTools.externals fetchTool identity
          crash state outcome).1) (if_pos served), iff_of_true rfl served, rfl⟩
    · exact ⟨{
          taskId := state.call.taskId
          toolCallId := state.call.id
          error := some "connection reset" },
        congrArg (fun outcome => (ToolRunner.finish fetchTools.externals fetchTool identity
          crash state outcome).1) (if_neg served), iff_of_false nofun served, undenied⟩

theorem fetch_scheduled (shared : SharedTools) :
    fetchTools.Scheduled [] fetchGraph shared := by
  have called := @ToolExecutor.callTool_called fetchTools _ _ _ _ _ fetchStep 0 "fetch"
    fetch_flaky List.mem_cons_self rfl shared shared (freshId_not_mem _)
  rcases called.returned with ⟨result, returned, _⟩
  have answered : (fetchTools.answered [] fetchGraph shared).1 =
      (fetchTools.unanswered [] fetchGraph (fetchTools.schedule shared)).withReplies
        [(("s1", 0), .returned result)] := by
    rw [← returned]
    rfl
  constructor
  · rw [answered]
    exact ⟨fun _ => rfl, fun _ => rfl, rfl, fun _ _ => rfl, fun _ => rfl, fun _ => rfl⟩
  · rw [answered]
    rcases result with ⟨_, _, _, _, _, success⟩
    cases success with
    | false =>
        exact ⟨_, rfl, rfl, List.Perm.refl _⟩
    | true =>
        exact ⟨_, rfl, rfl, List.Perm.refl _⟩
  · intro place member
    exact freshId_not_mem _
  · exact List.nodup_singleton _

theorem fetch_overTools :
    OverTools fetchRun fetchTools (fun _ => fetchTool) fetchFailures fetchPlan := by
  constructor
  · rfl
  · intro result world
    exact ⟨_, rfl, fun completed => if_pos completed⟩
  · exact fun _ => rfl
  · exact ⟨fetchGraph, fun _ => rfl, fetch_flaky, fetch_scheduled⟩

theorem fetch_covers (ledger : Option ExecutionLedger) :
    Covers fetchRun fetchFailures fetchPlan { ledger } := by
  have counted : failuresLeft fetchFailures fetchPlan { ledger } = 1 := rfl
  constructor
  · rw [counted]
    decide
  · rw [counted]
    decide

/-- The retry that recovers the plan when there is no ledger. -/
theorem fetch_recovered :
    ∃ outcome, (fetchRun.conclude fetchPlan none none {}).1 = .ok outcome ∧
      outcome.status = .recovered := by
  rcases recovered_iff_unhindered fetch_overTools {} (fetch_covers none) with
    ⟨outcome, isOutcome, recovers⟩
  exact ⟨outcome, isOutcome, recovers.mpr nofun⟩

/-- With an empty ledger, the retry is turned away by the row of the first attempt, though
that row is FAILED. -/
theorem fetch_lost_to_ledger :
    let shared : SharedTools := { ledger := some fun _ => none }
    let digest := (fetchTools.action (fun _ => fetchTool) [] fetchStep "fetch").key
    OverTools fetchRun fetchTools (fun _ => fetchTool) fetchFailures fetchPlan ∧
      Covers fetchRun fetchFailures fetchPlan shared ∧
      (fetchRun.conclude fetchPlan none none shared).1.toOption.map (·.status) =
        some .failed ∧
      ((fetchRun.conclude fetchPlan none none shared).2.world.ledger.bind (· digest)).map
        (·.state) = some .failed := by
  intro shared digest
  have ended := @RecoveryRun.loopFor_start _ fetchRun fetchPlan shared
  have failed : (fetchRun.loopFor (fetchRun.maxAttempts + 2)
      (fetchRun.start fetchPlan none none shared)).map (fun ended =>
        (ended.1.toOption.map (·.status),
          (ended.2.world.ledger.bind (· digest)).map (·.state))) =
      some (some .failed, some .failed) := by
    decide +kernel
  rw [ended, Option.map_some, Option.some.injEq, Prod.mk.injEq] at failed
  exact ⟨fetch_overTools, fetch_covers _, failed⟩

end Raphael.Agent.Recovery
