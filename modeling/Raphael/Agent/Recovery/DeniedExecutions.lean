import Raphael.Agent.Recovery.RecoveryVerdict
import Raphael.Tools.AuthorizedInvocations

/-! # Executions with a denied tool call

A denial reaches the recovery engine as the error text of a tool result. The engine
finds it by the word "denied", and the policy has an action for what it finds. -/

namespace Raphael.Agent.Recovery

open Core
open Agent.Executor
open Security
open Tools

/-! ## The denial path of the tool runner -/

/-- Why `_deny` is called. -/
inductive Denial
  /-- The authorizer raises an authorization denial or a domain validation error. -/
  | refused (error : Error)
  | authorizerRaised (text : String)
  | waitRaised (text : String)
  /-- The permission is not granted: by policy, by a human, or by the end of the wait. -/
  | notGranted (reason : String)
  | durable (state : ExecutionState)
  | duplicate (callId : String)

/-- The reason that `_deny` is called with. -/
def Denial.text : Denial → String
  | .refused error => error.text
  | .authorizerRaised text => "authorizer error: " ++ text
  | .waitRaised text => "approval wait failed: " ++ text
  | .notGranted reason => "denied: " ++ reason
  | .durable state => "action already has durable state " ++ state.value ++
      "; reconcile before replay"
  | .duplicate callId => "duplicate call id " ++ Text.repr callId ++ ": already executed"

/-- The result that `_deny` returns. -/
def Denial.Gives (externals : RunnerExternals) (denial : Denial) (result : ToolResult) :
    Prop :=
  ∃ state, (ToolRunner.deny externals state denial.text).1 = .ok result

/-- An authorization that does not go through is a denial, or a cancellation. -/
theorem permit_denies {externals : RunnerExternals} {surroundings : Surroundings}
    {runner : ToolRunner} {tool : Tool} {state : RunState} {ended : RunEnd}
    (refused : ToolRunner.permit externals surroundings runner tool state = .error ended) :
    (∃ denial state, ended = ToolRunner.deny externals state (Denial.text denial)) ∨
      ∃ state, ended = ToolRunner.failure state "cancelled before execution" := by
  unfold ToolRunner.permit at refused
  dsimp only at refused
  split at refused
  · next error _ =>
      cases refused
      cases error with
      | authorizationDenied taskId name reason =>
          exact .inl ⟨.refused (.authorizationDenied taskId name reason), _, rfl⟩
      | domainValidation message => exact .inl ⟨.refused (.domainValidation message), _, rfl⟩
      | planValidation message => exact .inl ⟨.refused (.planValidation message), _, rfl⟩
      | toolExecution message => exact .inl ⟨.authorizerRaised message, _, rfl⟩
      | toolTimeout message => exact .inl ⟨.authorizerRaised message, _, rfl⟩
      | model message => exact .inl ⟨.authorizerRaised message, _, rfl⟩
      | cancelled message => exact .inl ⟨.authorizerRaised message, _, rfl⟩
      | other message => exact .inl ⟨.authorizerRaised message, _, rfl⟩
  · split at refused
    · cases refused
      exact .inl ⟨.notGranted _, _, rfl⟩
    · split at refused
      · cases refused
        exact .inr ⟨_, rfl⟩
      · cases refused

/-- A reservation that does not go through is a denial. -/
theorem reserve_denies {externals : RunnerExternals} {tool : Tool} {state : RunState}
    {ended : RunEnd} (refused : ToolRunner.reserve externals tool state = .error ended) :
    ∃ denial state, ended = ToolRunner.deny externals state (Denial.text denial) := by
  unfold ToolRunner.reserve at refused
  dsimp only at refused
  split at refused
  · next record _ =>
      cases refused
      exact ⟨.durable record.state, _, rfl⟩
  · split at refused
    · cases refused
      exact ⟨.duplicate _, _, rfl⟩
    · cases refused

/-- The tool results that the denial path produced, among all that there are. -/
structure DenialPath (externals : RunnerExternals) where
  produced : ToolResult → Prop
  gives : ∀ result, produced result → ∃ denial : Denial, denial.Gives externals result

/-- Some tool result of the execution was produced by the denial path. -/
def DenialPath.Denied {externals : RunnerExternals} (path : DenialPath externals)
    (result : ExecutionResult) : Prop :=
  ∃ denied ∈ result.allToolResults, path.produced denied

/-! ## What the engine makes of it -/

/-- The error text of some tool result contains "denied". -/
def NamesDenial (lower : String → String) (result : ExecutionResult) : Prop :=
  ∃ denied ∈ result.allToolResults,
    Text.contains "denied" (lower (denied.error.getD "")) = true

namespace RecoveryRun

variable {World : Type u} {run : RecoveryRun World}

theorem classify_of_namesDenial {result : ExecutionResult}
    (names : NamesDenial run.externals.platform.lower result)
    (verification : VerificationResult) :
    (run.classify result verification).failureClass = .permissionFailure := by
  rcases names with ⟨denied, member, text⟩
  unfold classify
  dsimp only
  split
  · next found same =>
      have named := List.find?_some same
      simp only [FailureClassifier.classifyToolResult, named, if_true]
  · next absent =>
      exact absurd text (List.find?_eq_none.mp absent denied member)

/-- A failed tool without "denied" in any text is a failure that may be retried. -/
theorem classify_of_not_namesDenial {result : ExecutionResult}
    (silent : ¬ NamesDenial run.externals.platform.lower result) {failed : ToolResult}
    (member : failed ∈ result.allToolResults) (failure : failed.success = false)
    (verification : VerificationResult) :
    (run.classify result verification).failureClass.retryable = true ∧
      (run.classify result verification).failureClass ≠ .permissionFailure := by
  have unsaid : ∀ other ∈ result.allToolResults,
      Text.contains "denied" (run.externals.platform.lower (other.error.getD "")) = false := by
    intro other present
    exact Bool.eq_false_iff.mpr fun named => silent ⟨other, present, named⟩
  unfold classify
  dsimp only
  split
  · next found same =>
      have named := List.find?_some same
      rw [unsaid found (List.mem_of_find?_eq_some same)] at named
      cases named
  · split
    · exact ⟨rfl, nofun⟩
    · split
      · next other same =>
          have quiet := unsaid other (List.mem_of_find?_eq_some same)
          simp only [FailureClassifier.classifyToolResult, quiet, Bool.false_eq_true,
            if_false]
          split
          · exact ⟨rfl, nofun⟩
          · split <;> exact ⟨rfl, nofun⟩
      · next absent =>
          have succeeded := List.find?_eq_none.mp absent failed member
          simp [failure] at succeeded

/-- An execution with "denied" in a text is a permission failure, and only an override
makes that a retry. -/
theorem retry_iff_of_namesDenial {result : ExecutionResult}
    (names : NamesDenial run.externals.platform.lower result)
    (verification : VerificationResult) (retries replans : Nat) :
    run.engine.policy.actionFor (run.classify result verification) retries replans = .retry ↔
      run.engine.policy.overrides .permissionFailure = some .retry := by
  have permission := classify_of_namesDenial names verification
  unfold RecoveryPolicy.actionFor
  dsimp only
  rw [permission]
  cases overridden : run.engine.policy.overrides .permissionFailure with
  | none => simp
  | some action => simp

/-! ## What a run keeps on record -/

/-- The executions of a run, the prior one included, among all that it has observed. -/
def observed (plan : Plan) (priorResult : Option ExecutionResult)
    (trace : List Observation) : List Observation :=
  (priorResult.map fun result => .executed plan (.ok result)).toList ++ trace

/-- No plan is executed again after an execution of it with a denied tool call. -/
def NoReplay (identity : PlanIdentity) (denied : ExecutionResult → Prop)
    (history : List Observation) : Prop :=
  history.Pairwise fun earlier later => ∀ plan result again answer,
    earlier = .executed plan (.ok result) → denied result →
    later = .executed again answer → planVersion identity again ≠ planVersion identity plan

/-- Every execution with a denied tool call has "denied" in the text of some tool
result, and the policy does not override permission failures with a retry. -/
def NamesDenials (run : RecoveryRun World) (denied : ExecutionResult → Prop)
    (history : List Observation) : Prop :=
  ∀ plan result, .executed plan (.ok result) ∈ history → denied result →
    NamesDenial run.externals.platform.lower result ∧
      run.engine.policy.overrides .permissionFailure ≠ some .retry

theorem NamesDenials.mono {denied : ExecutionResult → Prop}
    {history more : List Observation} (names : NamesDenials run denied more)
    (included : history <+: more) : NamesDenials run denied history :=
  fun plan result member => names plan result (included.subset member)

/-- A recovery only adds to what has been observed. -/
theorem keepsObserved_grown (run : RecoveryRun World) (front : List Observation) :
    KeepsObserved run fun _ trace => front <+: trace where
  executes _ _ _ _ grown := grown.trans (List.prefix_append _ _)
  verifies _ _ _ _ _ grown := grown.trans (List.prefix_append _ _)
  replans _ _ _ _ _ _ _ _ grown := grown.trans (List.prefix_append _ _)

theorem trace_verify (loop : RecoveryLoop World) (result : ExecutionResult) :
    loop.trace <+: (turnLoop (run.verify loop result)).trace :=
  verify_keeps (keepsObserved_grown run loop.trace) List.prefix_rfl result

theorem trace_turn (loop : RecoveryLoop World) :
    loop.trace <+: (turnLoop (run.turn loop)).trace :=
  turn_keeps (keepsObserved_grown run loop.trace) List.prefix_rfl

theorem trace_loopFor {turns : Nat} {loop final : RecoveryLoop World}
    {answer : Except Error RecoveryOutcome}
    (ended : run.loopFor turns loop = some (answer, final)) : loop.trace <+: final.trace :=
  loopFor_keeps (keepsObserved_grown run loop.trace) List.prefix_rfl ended

/-! ## The invariant of the loop -/

/-- Between two turns, and inside one: only the execution that stands may be a denied
one of the current plan. -/
structure Barred (run : RecoveryRun World) (denied : ExecutionResult → Prop)
    (prior : List Observation) (loop : RecoveryLoop World) : Prop where
  current : planVersion run.externals.identity loop.current ∈ loop.seen
  seen : ∀ plan answer, .executed plan answer ∈ prior ++ loop.trace →
    planVersion run.externals.identity plan ∈ loop.seen
  standing : ∀ result, loop.result = some result →
    .executed loop.current (.ok result) ∈ prior ++ loop.trace
  only : ∀ plan result, .executed plan (.ok result) ∈ prior ++ loop.trace → denied result →
    planVersion run.externals.identity plan =
      planVersion run.externals.identity loop.current → loop.result = some result
  once : NoReplay run.externals.identity denied (prior ++ loop.trace)

/-- A turn ends without a replay, or goes on with the invariant. -/
def Bars (run : RecoveryRun World) (denied : ExecutionResult → Prop)
    (prior : List Observation) : RecoveryTurn World → Prop
  | .ended _ final => NoReplay run.externals.identity denied (prior ++ final.trace)
  | .goesOn next => Barred run denied prior next

variable {denied : ExecutionResult → Prop} {prior : List Observation}
  {loop : RecoveryLoop World}

theorem noReplay_append {identity : PlanIdentity} {history : List Observation}
    {last : Observation} (once : NoReplay identity denied history)
    (fresh : ∀ again answer, last = .executed again answer →
      ∀ plan result, .executed plan (.ok result) ∈ history → denied result →
        planVersion identity again ≠ planVersion identity plan) :
    NoReplay identity denied (history ++ [last]) := by
  apply List.pairwise_append.mpr
  refine ⟨once, List.pairwise_singleton _ _, ?_⟩
  intro earlier member later isLast plan result again answer same isDenied executed
  rw [List.mem_singleton] at isLast
  exact fresh again answer (isLast ▸ executed) plan result (same ▸ member) isDenied

/-- No execution of the current plan was a denied one, so it may be executed. -/
theorem Barred.fresh (barred : Barred run denied prior loop) (absent : loop.result = none)
    (answer : Except Error ExecutionResult) :
    NoReplay run.externals.identity denied
      (prior ++ loop.trace ++ [.executed loop.current answer]) := by
  apply noReplay_append barred.once
  intro again other same plan result member isDenied version
  cases same
  have mine := barred.only plan result member isDenied version.symm
  rw [absent] at mine
  cases mine

/-- Something else than an execution is observed. -/
theorem Barred.observe (barred : Barred run denied prior loop) {last : Observation}
    (other : ∀ plan answer, last ≠ .executed plan answer)
    {next : RecoveryLoop World} (trace : next.trace = loop.trace ++ [last])
    (current : next.current = loop.current) (seen : next.seen = loop.seen)
    (result : next.result = loop.result) : Barred run denied prior next := by
  have executed : ∀ plan answer, .executed plan answer ∈ prior ++ next.trace ↔
      .executed plan answer ∈ prior ++ loop.trace := by
    intro plan answer
    have differs : Observation.executed plan answer ≠ last := (other plan answer).symm
    simp [trace, differs]
  constructor
  · rw [current, seen]
    exact barred.current
  · intro plan answer member
    rw [seen]
    exact barred.seen plan answer ((executed plan answer).mp member)
  · intro result' stands
    rw [current, executed]
    exact barred.standing result' (result ▸ stands)
  · intro plan result' member isDenied same
    rw [result]
    rw [current] at same
    exact barred.only plan result' ((executed plan _).mp member) isDenied same
  · rw [trace, ← List.append_assoc]
    exact noReplay_append barred.once fun again answer same => absurd same (other again answer)

/-- Records play no part. -/
theorem Barred.record (barred : Barred run denied prior loop) (record : RecoveryRecord) :
    Barred run denied prior (run.record loop record) :=
  ⟨barred.current, barred.seen, barred.standing, barred.only, barred.once⟩

/-- The current plan is tried again: no execution of it was a denied one. -/
theorem Barred.again (barred : Barred run denied prior loop) {result : ExecutionResult}
    (stands : loop.result = some result) (granted : ¬ denied result) (retries : Nat) :
    Barred run denied prior (again { loop with retries }) := by
  refine ⟨barred.current, barred.seen, nofun, ?_, barred.once⟩
  intro plan other member isDenied same
  have mine := barred.only plan other member isDenied same
  rw [stands] at mine
  exact absurd (Option.some.inj mine ▸ isDenied) granted

/-- A plan that was not tried takes the place of the current one. -/
theorem Barred.replaced (barred : Barred run denied prior loop) {candidate : Plan}
    (fresh : planVersion run.externals.identity candidate ∉ loop.seen)
    {next : RecoveryLoop World} (trace : next.trace = loop.trace)
    (current : next.current = candidate)
    (seen : next.seen = planVersion run.externals.identity candidate :: loop.seen)
    (result : next.result = none) : Barred run denied prior next := by
  constructor
  · rw [current, seen]
    exact List.mem_cons_self
  · intro plan answer member
    rw [seen]
    exact List.mem_cons_of_mem _ (barred.seen plan answer (trace ▸ member))
  · intro other stands
    rw [result] at stands
    cases stands
  · intro plan other member _ same
    rw [current] at same
    exact absurd (same ▸ barred.seen plan _ (trace ▸ member)) fresh
  · rw [trace]
    exact barred.once

theorem Barred.replan (barred : Barred run denied prior loop)
    (classification : Classification) (verification : VerificationResult) :
    Bars run denied prior (run.replan loop classification verification) := by
  unfold RecoveryRun.replan
  split
  · exact barred.once
  · next planner _ =>
      dsimp only
      cases asked : planner.requestReplan run.externals.platform run.externals.identity
          run.taskId loop.current classification.detail loop.seen loop.world with
      | mk answer world =>
          have observed : Barred run denied prior
              { loop with world, trace := loop.trace ++ [.replanned answer] } :=
            barred.observe (by simp) rfl rfl rfl rfl
          dsimp only
          split
          · split <;> exact observed.once
          · exact observed.replaced
              (planner.requestReplan_fresh run.externals.platform run.externals.identity asked)
              rfl rfl rfl rfl

theorem Barred.decide (barred : Barred run denied prior loop) {result : ExecutionResult}
    (stands : loop.result = some result)
    (names : denied result → NamesDenial run.externals.platform.lower result ∧
      run.engine.policy.overrides .permissionFailure ≠ some .retry)
    (verification : VerificationResult) :
    Bars run denied prior (run.decide loop result verification) := by
  unfold RecoveryRun.decide
  split
  · exact barred.once
  · dsimp only
    split
    · next retried =>
        -- A retry was decided, so the execution is not a denied one.
        have granted : ¬ denied result := by
          intro isDenied
          rcases names isDenied with ⟨named, plain⟩
          exact plain ((retry_iff_of_namesDenial named verification _ _).mp retried)
        exact (barred.record _).again stands granted _
    · exact (barred.record _).replan _ _
    · exact barred.once
    · exact barred.once
    · exact barred.once

theorem Barred.verify (barred : Barred run denied prior loop) {result : ExecutionResult}
    (stands : loop.result = some result)
    (names : denied result → NamesDenial run.externals.platform.lower result ∧
      run.engine.policy.overrides .permissionFailure ≠ some .retry) :
    Bars run denied prior (run.verify loop result) := by
  unfold RecoveryRun.verify
  cases present : loop.verification with
  | some verification => exact barred.decide stands names verification
  | none =>
      generalize run.calls.verifyFn run.taskId loop.current result loop.world = asked
      rcases asked with ⟨answer, world⟩
      cases answer with
      | error error =>
          apply Barred.once
          exact barred.observe (by simp) rfl rfl rfl rfl
      | ok verification =>
          have observed : Barred run denied prior
              { loop with
                world
                trace := loop.trace ++ [.verified loop.current result (.ok verification)]
                verification := some verification } :=
            barred.observe (by simp) rfl rfl rfl rfl
          exact observed.decide stands names verification

/-- The current plan is executed. -/
theorem Barred.executed (barred : Barred run denied prior loop) (absent : loop.result = none)
    {result : ExecutionResult} {next : RecoveryLoop World}
    (trace : next.trace = loop.trace ++ [.executed loop.current (.ok result)])
    (current : next.current = loop.current) (seen : next.seen = loop.seen)
    (stands : next.result = some result) : Barred run denied prior next := by
  have cases_executed : ∀ plan answer, .executed plan answer ∈ prior ++ next.trace →
      .executed plan answer ∈ prior ++ loop.trace ∨
        (plan = loop.current ∧ answer = .ok result) := by
    intro plan answer member
    rw [trace, ← List.append_assoc, List.mem_append, List.mem_singleton] at member
    rcases member with before | last
    · exact .inl before
    · cases last
      exact .inr ⟨rfl, rfl⟩
  constructor
  · rw [current, seen]
    exact barred.current
  · intro plan answer member
    rw [seen]
    rcases cases_executed plan answer member with before | ⟨rfl, _⟩
    · exact barred.seen plan answer before
    · exact barred.current
  · intro other same
    cases Option.some.inj (stands.symm.trans same)
    simp [trace, current]
  · intro plan other member isDenied same
    rw [current] at same
    rcases cases_executed plan _ member with before | ⟨_, last⟩
    · have mine := barred.only plan other before isDenied same
      rw [absent] at mine
      cases mine
    · cases last
      exact stands
  · rw [trace, ← List.append_assoc]
    exact barred.fresh absent _

/-- A turn goes on with the invariant, where the denials it has seen are named. -/
theorem Barred.turn (barred : Barred run denied prior loop)
    (names : NamesDenials run denied (prior ++ (turnLoop (run.turn loop)).trace)) :
    Bars run denied prior (run.turn loop) := by
  have grows := (List.prefix_append_right_inj prior).mpr (@trace_turn _ run loop)
  revert grows names
  unfold RecoveryRun.turn
  cases absent : loop.result with
  | some result =>
      intro names grows
      exact barred.verify absent fun isDenied =>
        names _ _ (grows.subset (barred.standing result absent)) isDenied
  | none =>
      generalize run.calls.executeFn loop.current run.arguments loop.world = asked
      rcases asked with ⟨answer, world⟩
      dsimp only
      split
      · exact fun _ _ => barred.once
      · cases answer with
        | error error =>
            intro _ _
            have fresh := barred.fresh absent (.error error)
            rwa [List.append_assoc] at fresh
        | ok result =>
            have executed : Barred run denied prior
                { loop with
                  world
                  trace := loop.trace ++ [.executed loop.current (.ok result)]
                  result := some result
                  executions := loop.executions + 1
                  verification := none } :=
              barred.executed absent rfl rfl rfl rfl
            dsimp only
            split
            · exact fun _ _ => executed.once
            · intro names _
              have grows := (List.prefix_append_right_inj prior).mpr (@trace_verify _ run
                { loop with
                  world
                  trace := loop.trace ++ [.executed loop.current (.ok result)]
                  result := some result
                  executions := loop.executions + 1
                  verification := none } result)
              exact executed.verify rfl fun isDenied =>
                names _ _ (grows.subset (executed.standing result rfl)) isDenied

/-- The invariant holds till the loop ends, where the denials it has seen are named. -/
theorem Barred.loopFor {turns : Nat} {answer : Except Error RecoveryOutcome}
    {final : RecoveryLoop World} (barred : Barred run denied prior loop)
    (ended : run.loopFor turns loop = some (answer, final))
    (names : NamesDenials run denied (prior ++ final.trace)) :
    NoReplay run.externals.identity denied (prior ++ final.trace) := by
  refine loopFor_rule ?_ ?_ ended barred
  · intro loop barred turned
    have bars := @Barred.turn _ run denied prior loop barred
    rw [turned] at bars
    exact bars names
  · intro turns loop next barred turned ended
    have bars := @Barred.turn _ run denied prior loop barred
    rw [turned] at bars
    have grows := (List.prefix_append_right_inj prior).mpr (trace_loopFor ended)
    exact bars (names.mono grows)

theorem barred_start (plan : Plan) (priorResult : Option ExecutionResult)
    (priorVerification : Option VerificationResult) (world : World) :
    Barred run denied (observed plan priorResult [])
      (run.start plan priorResult priorVerification world) := by
  have executed : ∀ other answer,
      .executed other answer ∈ observed plan priorResult [] ++ [] →
        other = plan ∧ ∃ result, priorResult = some result ∧ answer = .ok result := by
    intro other answer member
    cases priorResult with
    | none => simp [observed] at member
    | some result =>
        simp only [observed, Option.map_some, Option.toList_some, List.append_nil,
          List.mem_singleton, Observation.executed.injEq] at member
        exact ⟨member.1, result, rfl, member.2⟩
  constructor
  · exact List.mem_singleton_self _
  · intro other answer member
    rw [(executed other answer member).1]
    exact List.mem_singleton_self _
  · intro result stands
    have given : priorResult = some result := stands
    subst given
    exact List.mem_singleton_self _
  · intro other result member _ _
    rcases executed other _ member with ⟨_, prior, given, same⟩
    cases same
    exact given
  · cases priorResult with
    | none => exact List.Pairwise.nil
    | some result => exact List.pairwise_singleton _ _

/-- In every recovery in which the denials are named and permission failures are not
overridden with a retry, no plan is executed again after an execution of it with a
denied tool call. -/
theorem noReplay_of_namesDenials {externals : RunnerExternals} (path : DenialPath externals)
    (run : RecoveryRun World) (plan : Plan) (priorResult : Option ExecutionResult)
    (priorVerification : Option VerificationResult) (world : World)
    (names : run.NamesDenials path.Denied (observed plan priorResult
      (run.conclude plan priorResult priorVerification world).2.trace)) :
    NoReplay run.externals.identity path.Denied (observed plan priorResult
      (run.conclude plan priorResult priorVerification world).2.trace) := by
  have barred : Barred run path.Denied (observed plan priorResult [])
      (run.start plan priorResult priorVerification world) := barred_start ..
  have parts : ∀ trace, observed plan priorResult trace =
      observed plan priorResult [] ++ trace := by
    simp [observed]
  rw [parts] at names ⊢
  rcases conclude_of_loopFor run plan priorResult priorVerification world with same | ended
  · rw [same]
    exact barred.once
  · exact barred.loopFor ended names

/-! ## A refused tool that is tried again -/

def refusingManager (policy : Policy) : AuthorizationManager where
  registry := ToolRunner.notesRunner.registry
  policyEngine := { policy }

def refusingRunner (policy : Policy) : ToolRunner where
  registry := ToolRunner.notesRunner.registry
  authorizer := refusingManager policy
  sandbox := fun _ handler => handler

/-- What the runner makes of the call under a policy. -/
def refused (policy : Policy) : Except Error ToolResult :=
  (ToolRunner.run ToolRunner.plainExternals ToolRunner.humanApproves (refusingRunner policy)
    (ToolRunner.opening ToolRunner.plainExternals
      { ToolRunner.notesCall with taskId := "task" } (some {}) none [])).1

def refusal (error : String) : ToolResult where
  taskId := "task"
  toolCallId := "call-1"
  error := some error

/-- The one result of a refused call is from the denial path. -/
def refusalPath (denial : Denial) :
    DenialPath ToolRunner.plainExternals where
  produced := fun result => result = refusal denial.text
  gives := by
    rintro _ rfl
    exact ⟨denial,
      { call := { ToolRunner.notesCall with taskId := "task" } }, rfl⟩

/-- A step fails with the refusal, in each execution. -/
def refusedExecution (error : String) : ExecutionResult where
  taskId := "task"
  status := .failed
  states := [("s1", .failed)]
  failed := ["s1"]
  results := [("s1", [refusal error])]

def deletePlan : Plan where
  id := "plan-1"
  goal := "delete the notes"
  steps := [{ id := "s1", tools := ["notes.delete"] }]

def deleteExternals : RecoveryExternals where
  platform := ToolRunner.plainExternals.platform
  identity := { modelDumpJson := fun _ => "plan-1", sha256 := id }

def refusedRun (policy : RecoveryPolicy) (error : String) : RecoveryRun Unit where
  externals := deleteExternals
  engine := { policy }
  calls := {
    executeFn := fun _ _ world => (.ok (refusedExecution error), world)
    verifyFn := fun _ _ _ world => (.ok { status := .failed }, world) }
  taskId := "task"

def refusedHistory (policy : RecoveryPolicy) (error : String) : List Observation :=
  observed deletePlan none
    ((refusedRun policy error).conclude deletePlan none none ()).2.trace

/-- No approval request lives under the policy, which the authorizer raises. -/
def noTtl : Denial := .refused (.domainValidation "approval TTL must be positive")

/-- The tool is out of the question under the policy. -/
def deniedTool : Denial :=
  .notGranted "tool 'notes.delete' is denied by policy 'default'"

/-- Permission failures are retried, as an override. -/
def retriesDenials : RecoveryPolicy where
  overrides := fun failureClass =>
    if failureClass = .permissionFailure then some .retry else none

def attempted (denial : Denial) : Observation :=
  .executed deletePlan (.ok (refusedExecution denial.text))

private theorem denied_refusedExecution (denial : Denial) :
    (refusalPath denial).Denied (refusedExecution denial.text) :=
  ⟨refusal denial.text, List.mem_singleton_self _, rfl⟩

private theorem replays_of_attempted {denial : Denial} {between : Observation}
    {rest : List Observation} :
    ¬ NoReplay deleteExternals.identity (refusalPath denial).Denied
      (attempted denial :: between :: attempted denial :: rest) := by
  intro once
  have later := List.rel_of_pairwise_cons once
    (List.mem_cons_of_mem between List.mem_cons_self)
  exact later deletePlan _ deletePlan _ rfl (denied_refusedExecution denial) rfl rfl

/-- The notes are tried to be deleted again after the refusal: under the default policy
because the refusal does not say "denied", and under an override because it is one. -/
theorem refusal_replayed :
    (refused { approvalTtl := 0 } = .ok (refusal noTtl.text) ∧
      ¬ NoReplay deleteExternals.identity (refusalPath noTtl).Denied
        (refusedHistory {} noTtl.text)) ∧
    (refused { deniedTools := ["notes.delete"] } = .ok (refusal deniedTool.text) ∧
      ¬ NoReplay deleteExternals.identity (refusalPath deniedTool).Denied
        (refusedHistory retriesDenials deniedTool.text)) := by
  have first : refusedHistory {} noTtl.text = attempted noTtl ::
      .verified deletePlan (refusedExecution noTtl.text) (.ok { status := .failed }) ::
      attempted noTtl :: (refusedHistory {} noTtl.text).drop 3 := by
    rfl
  have second : refusedHistory retriesDenials deniedTool.text = attempted deniedTool ::
      .verified deletePlan (refusedExecution deniedTool.text) (.ok { status := .failed }) ::
      attempted deniedTool :: (refusedHistory retriesDenials deniedTool.text).drop 3 := by
    rfl
  rw [first, second]
  exact ⟨⟨rfl, replays_of_attempted⟩, rfl, replays_of_attempted⟩

/-- A denial that says so is not followed by another attempt. -/
theorem deniedTool_not_replayed :
    NoReplay deleteExternals.identity (refusalPath deniedTool).Denied
      (refusedHistory {} deniedTool.text) := by
  refine noReplay_of_namesDenials (refusalPath deniedTool) (refusedRun {} deniedTool.text)
    deletePlan none none () ?_
  have history : refusedHistory {} deniedTool.text = [attempted deniedTool,
      .verified deletePlan (refusedExecution deniedTool.text) (.ok { status := .failed })] := by
    rfl
  intro plan result member _
  change _ ∈ refusedHistory {} deniedTool.text at member
  rw [history] at member
  obtain rfl : result = refusedExecution deniedTool.text := by
    simp only [attempted, List.mem_cons, Observation.executed.injEq, Except.ok.injEq,
      reduceCtorEq, List.not_mem_nil, or_false] at member
    exact member.2
  refine ⟨⟨refusal deniedTool.text, List.mem_singleton_self _, by decide⟩, ?_⟩
  intro granted
  cases granted

end RecoveryRun

end Raphael.Agent.Recovery
