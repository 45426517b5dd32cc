import Raphael.Agent.Executor.ParallelExecutor
import Raphael.Agent.Recovery.RecoveryPlanner
import Raphael.Agent.Recovery.RecoveryPolicy

/-! # The recovery engine

The bounded loop that executes, verifies and recovers until it ends. What is
executed and verified are callables of the caller; they act on a world, and may
raise. -/

namespace Raphael.Agent.Recovery

open Core
open Agent.Executor
open Security

inductive OutcomeStatus
  | recovered
  | failed
  | escalated
  | partial_
  deriving DecidableEq, Repr

def OutcomeStatus.value : OutcomeStatus → String
  | .recovered => "RECOVERED"
  | .failed => "FAILED"
  | .escalated => "ESCALATED"
  | .partial_ => "PARTIAL"

/-- One audited step of the loop. -/
structure RecoveryRecord where
  attempt : Nat := 0
  classification : FailureClass := .unknown
  action : RecoveryAction := .fail
  reason : String := ""
  verification : String := ""

structure RecoveryOutcome where
  taskId : String := ""
  status : OutcomeStatus := .failed
  attempts : Nat := 0
  retries : Nat := 0
  replans : Nat := 0
  planVersions : List String := []
  audit : List RecoveryRecord := []
  finalVerification : Option VerificationResult := none
  reason : String := ""

/-- A recorded handoff to a human. -/
structure Escalation where
  taskId : String := ""
  reason : String := ""
  evidence : List String := []

/-- What a callable of the caller was asked, and how it answered. -/
inductive Observation
  | executed (plan : Plan) (answer : Except Error ExecutionResult)
  | verified (plan : Plan) (result : ExecutionResult)
      (answer : Except Error VerificationResult)
  | replanned (answer : Except Error Plan)

/-- The caller's side of a recovery. -/
structure RecoveryCalls (World : Type u) where
  executeFn : Plan → Arguments → World → Except Error ExecutionResult × World
  verifyFn : String → Plan → ExecutionResult → World →
    Except Error VerificationResult × World

/-- What the engine takes from outside. -/
structure RecoveryExternals where
  platform : Platform
  identity : PlanIdentity

structure RecoveryEngine (World : Type u) where
  policy : RecoveryPolicy := {}
  planner : Option (RecoveryPlanner World) := none

/-- One call of `run_with_prior`. -/
structure RecoveryRun (World : Type u) where
  externals : RecoveryExternals
  engine : RecoveryEngine World
  calls : RecoveryCalls World
  taskId : String
  arguments : Arguments := []
  maxAttempts : Nat := 3

/-- The variables of the loop, what it publishes and records, and everything it
has observed. -/
structure RecoveryLoop (World : Type u) where
  world : World
  current : Plan
  result : Option ExecutionResult := none
  verification : Option VerificationResult := none
  executions : Nat := 0
  retries : Nat := 0
  replans : Nat := 0
  versions : List String := []
  seen : List String := []
  audit : List RecoveryRecord := []
  events : List Event := []
  escalations : List Escalation := []
  trace : List Observation := []

/-- How a turn of the loop ends. -/
inductive RecoveryTurn (World : Type u)
  | ended (answer : Except Error RecoveryOutcome) (loop : RecoveryLoop World)
  | goesOn (loop : RecoveryLoop World)

namespace RecoveryRun

variable {World : Type u} (run : RecoveryRun World)

/-! ## Classification -/

/-- Root cause first: execution failures dominate verification ones. -/
def classify (result : ExecutionResult) (verification : VerificationResult) :
    Classification :=
  let lower := run.externals.platform.lower
  let results := result.allToolResults
  match results.find? fun result => Text.contains "denied" (lower (result.error.getD "")) with
  | some denied => FailureClassifier.classifyToolResult lower denied
  | none =>
      if result.timedOut ≠ [] then ⟨.timeout, "step deadline exceeded", "execution"⟩
      else
        match results.find? fun result => !result.success with
        | some failed => FailureClassifier.classifyToolResult lower failed
        | none =>
            if result.status = .failed then
              if result.skipped ≠ [] then
                ⟨.dependencyFailure, "steps skipped: " ++ Text.join ", " result.skipped,
                  "execution"⟩
              else ⟨.unknown, "execution failed", "execution"⟩
            else FailureClassifier.classifyVerification verification

/-! ## Endings -/

/-- `_terminal`. -/
def terminal (loop : RecoveryLoop World) (status : OutcomeStatus) (reason : String) :
    RecoveryOutcome where
  taskId := run.taskId
  status := status
  attempts := loop.executions
  retries := loop.retries
  replans := loop.replans
  planVersions := loop.versions
  audit := loop.audit
  finalVerification := loop.verification
  reason := reason

def ends (loop : RecoveryLoop World) (status : OutcomeStatus) (reason : String) :
    RecoveryTurn World :=
  .ended (.ok (run.terminal loop status reason)) loop

/-- `_emit_decided`, behind the record that is audited. -/
def record (loop : RecoveryLoop World) (record : RecoveryRecord) : RecoveryLoop World :=
  { loop with
    audit := loop.audit ++ [record]
    events := loop.events ++ [{
      eventType := .recoveryDecided
      taskId := run.taskId
      payload := [("attempt", .int record.attempt),
        ("classification", .str record.classification.value),
        ("action", .str record.action.value), ("reason", .str record.reason)] }] }

/-- `_give_up`, when the verification raised. -/
def giveUp (loop : RecoveryLoop World) (error : Error) : RecoveryTurn World :=
  let reason := "verification raised: " ++ error.text
  run.ends (run.record loop
    { attempt := loop.executions
      classification := (FailureClassifier.classifyException error).failureClass
      action := .fail
      reason
      verification := "ERROR" }) .failed reason

/-! ## Actions -/

/-- The plan is tried again, or another one is tried. -/
def again (loop : RecoveryLoop World) : RecoveryLoop World :=
  { loop with
    result := none
    verification := none }

def replan (loop : RecoveryLoop World) (classification : Classification)
    (verification : VerificationResult) : RecoveryTurn World :=
  match run.engine.planner with
  | none => run.ends loop .failed "replan requested but no planner"
  | some planner =>
      let (answer, world) := planner.requestReplan run.externals.platform
        run.externals.identity run.taskId loop.current classification.detail
        loop.seen loop.world
      let loop := { loop with
        world
        trace := loop.trace ++ [.replanned answer] }
      match answer with
      | .error error =>
          match error with
          | .planValidation _ | .authorizationDenied .. =>
              let reason := "replacement plan rejected: " ++ error.text
              let loop := { loop with
                audit := loop.audit ++ [{
                  attempt := loop.executions
                  classification := classification.failureClass
                  action := .fail
                  reason
                  verification := verification.status.value }] }
              run.ends loop .failed reason
          | _ => .ended (.error error) loop
      | .ok candidate =>
          let version := planVersion run.externals.identity candidate
          .goesOn (again { loop with
            replans := loop.replans + 1
            seen := version :: loop.seen
            versions := loop.versions ++ [version]
            current := candidate })

/-- `EscalationManager.escalate`. -/
def escalate (loop : RecoveryLoop World) (reason : String) (evidence : List String) :
    RecoveryLoop World :=
  { loop with
    escalations := loop.escalations ++ [{ taskId := run.taskId, reason, evidence }]
    events := loop.events ++ [{
      eventType := .recoveryExhausted
      taskId := run.taskId
      payload := [("reason", .str reason), ("evidence", .arr (evidence.map .str))] }] }

/-- The execution is complete and its verification passed. -/
def passes (result : ExecutionResult) (verification : VerificationResult) : Bool :=
  result.status == .completed && verification.status == .passed

/-- A turn, once there is an execution and its verification. -/
def decide (loop : RecoveryLoop World) (result : ExecutionResult)
    (verification : VerificationResult) : RecoveryTurn World :=
  if passes result verification then run.ends loop .recovered "verification passed"
  else
    let classification := run.classify result verification
    let action := run.engine.policy.actionFor classification loop.retries loop.replans
    let loop := run.record loop
      { attempt := loop.executions
        classification := classification.failureClass
        action
        reason := classification.detail
        verification := verification.status.value }
    match action with
    | .retry => .goesOn (again { loop with retries := loop.retries + 1 })
    | .replan => run.replan loop classification verification
    | .skip =>
        run.ends loop .partial_ ("skipped after " ++ classification.failureClass.value)
    | .escalate =>
        run.ends (run.escalate loop classification.detail
          [verification.reason, verification.status.value]) .escalated
          ("escalated: " ++ classification.detail)
    | .fail => run.ends loop .failed ("failed: " ++ classification.detail)

/-- A turn, once there is an execution. -/
def verify (loop : RecoveryLoop World) (result : ExecutionResult) : RecoveryTurn World :=
  match loop.verification with
  | some verification => run.decide loop result verification
  | none =>
      let (answer, world) := run.calls.verifyFn run.taskId loop.current result
        loop.world
      let loop := { loop with
        world
        trace := loop.trace ++ [.verified loop.current result answer] }
      match answer with
      | .error error => run.giveUp loop error
      | .ok verification =>
          run.decide { loop with verification := some verification } result
            verification

/-- One turn of `while True`. -/
def turn (loop : RecoveryLoop World) : RecoveryTurn World :=
  match loop.result with
  | some result => run.verify loop result
  | none =>
      if loop.executions ≥ run.maxAttempts then
        run.ends loop .failed "attempt budget exhausted"
      else
        let (answer, world) := run.calls.executeFn loop.current run.arguments
          loop.world
        let loop := { loop with
          world
          trace := loop.trace ++ [.executed loop.current answer] }
        match answer with
        | .error error => .ended (.error error) loop
        | .ok result =>
            let loop := { loop with
              result := some result
              executions := loop.executions + 1
              verification := none }
            if result.status = .cancelled then
              run.ends loop .failed "execution cancelled"
            else run.verify loop result

/-- The loop, for a number of turns. -/
def loopFor : Nat → RecoveryLoop World →
    Option (Except Error RecoveryOutcome × RecoveryLoop World)
  | 0, _ => none
  | turns + 1, loop =>
      match run.turn loop with
      | .ended answer loop => some (answer, loop)
      | .goesOn loop => loopFor turns loop

/-- The loop before its first turn. -/
def start (plan : Plan) (priorResult : Option ExecutionResult)
    (priorVerification : Option VerificationResult) (world : World) :
    RecoveryLoop World :=
  let version := planVersion run.externals.identity plan
  { world
    current := plan
    result := priorResult
    verification := priorVerification
    executions := if priorResult.isSome then 1 else 0
    versions := [version]
    seen := [version] }

/-- `run_with_prior`, for at most a number of turns of its loop. -/
def runWithPrior (turns : Nat) (plan : Plan) (priorResult : Option ExecutionResult)
    (priorVerification : Option VerificationResult) (world : World) :
    Option (Except Error RecoveryOutcome × RecoveryLoop World) :=
  let loop := run.start plan priorResult priorVerification world
  match priorResult, priorVerification with
  | some result, some verification =>
      if passes result verification then
        some (.ok { run.terminal loop .recovered "verification passed" with
          attempts := 0 }, loop)
      else run.loopFor turns loop
  | _, _ => run.loopFor turns loop

/-! ## Rules of the loop -/

variable {run} {loop : RecoveryLoop World} {answer : Except Error RecoveryOutcome}
  {final : RecoveryLoop World}

theorem loopFor_of_ended (turned : run.turn loop = .ended answer final) {turns : Nat}
    (positive : 0 < turns) : run.loopFor turns loop = some (answer, final) := by
  cases turns with
  | zero => cases positive
  | succ turns => simp only [loopFor, turned]

theorem loopFor_of_goesOn {next : RecoveryLoop World} (turned : run.turn loop = .goesOn next)
    (turns : Nat) : run.loopFor (turns + 1) loop = run.loopFor turns next := by
  simp only [loopFor, turned]

/-- What each turn keeps that goes on holds before the turn that ends the loop. -/
theorem loopFor_rule {invariant : RecoveryLoop World → Prop} {ending : Prop}
    (ends : ∀ loop, invariant loop → run.turn loop = .ended answer final → ending)
    (goesOn : ∀ turns loop next, invariant loop → run.turn loop = .goesOn next →
      run.loopFor turns next = some (answer, final) → invariant next)
    {turns : Nat} (ended : run.loopFor turns loop = some (answer, final))
    (holds : invariant loop) : ending := by
  induction turns generalizing loop with
  | zero => cases ended
  | succ turns induction =>
      cases turned : run.turn loop with
      | ended lastAnswer last =>
          rw [loopFor_of_ended turned (Nat.succ_pos turns)] at ended
          cases ended
          exact ends loop holds turned
      | goesOn next =>
          rw [loopFor_of_goesOn turned] at ended
          exact induction ended (goesOn turns loop next holds turned ended)

end RecoveryRun

end Raphael.Agent.Recovery
