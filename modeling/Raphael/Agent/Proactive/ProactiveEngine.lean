import Raphael.Core.Events
import Raphael.Foundation.StepSystem
import Raphael.Learning.Pipeline

/-! # Proactive suggestions

Triggers propose, an operator decides, and what is approved runs through the callables of
the caller. Times are readings of the clock: any ordered type with differences. -/

namespace Raphael.Agent.Proactive

open Core Foundation
open Learning (LearningRisk)

inductive TriggerKind
  | scheduled
  | systemCondition
  | taskCompleted
  | resourceCondition
  | repeatedPattern
  | userEvent
  deriving DecidableEq, Repr

def TriggerKind.value : TriggerKind → String
  | .scheduled => "SCHEDULED"
  | .systemCondition => "SYSTEM_CONDITION"
  | .taskCompleted => "TASK_COMPLETED"
  | .resourceCondition => "RESOURCE_CONDITION"
  | .repeatedPattern => "REPEATED_PATTERN"
  | .userEvent => "USER_EVENT"

def triggerKinds : List TriggerKind :=
  [.scheduled, .systemCondition, .taskCompleted, .resourceCondition, .repeatedPattern,
    .userEvent]

inductive ProposalState
  | proposed
  | approved
  | rejected
  | executed
  | failed
  deriving DecidableEq, Repr

structure ProactiveTrigger (Time : Type) where
  kind : TriggerKind := .scheduled
  summary : String := ""
  cooldownS : Time
  enabled : Bool := true

structure ProactiveProposal where
  id : String
  triggerId : String := ""
  subject : String := ""
  summary : String := ""
  risk : LearningRisk := .low
  state : ProposalState := .proposed
  deriving DecidableEq

structure ProactiveConfig where
  enabled : Bool := true
  quietStartHour : Int := 22
  quietEndHour : Int := 7
  allowedCategories : List String := []
  maxPerHour : Int := 5
  requireApproval : Bool := true

/-- What is read off a clock: the UTC hour of a reading, and the length of an hour. -/
structure ProactiveClock (Time : Type) where
  utcHour : Time → Int
  hour : Time

/-- What has become of the proposals, in order. -/
inductive ProactiveAct (Time : Type)
  | proposed (proposal : ProactiveProposal) (now : Time)
  | approved (proposalId : String)
  | rejected (proposalId : String)
  /-- The callable of the caller is invoked. -/
  | invoked (proposalId : String)

structure ProactiveEngine (Time : Type) where
  clock : ProactiveClock Time
  config : ProactiveConfig
  triggers : Dict String (ProactiveTrigger Time)
  proposals : Dict String ProactiveProposal := Dict.empty
  lastFired : Dict (String × String) Time := Dict.empty
  proposalTimes : List Time := []
  events : List Event := []
  /-- A record for the statements, which the engine does not read. -/
  history : List (ProactiveAct Time) := []

/-- How `execute_fn` ends: it returns, raises an `Exception`, or raises something that is
none, as an interrupt. -/
inductive ExecuteEnd (Outcome : Type)
  | returned (outcome : Outcome)
  | raised (text : String)
  | interrupted (error : Error)

/-- What `verify_fn` returns: its truth, which may raise as it is read, and how an event
shows it. -/
structure Verdict where
  truth : Except Error Bool
  shown : Json := .null

abbrev VerifyFn (Outcome : Type) := Outcome → Except Error Verdict

namespace ProactiveConfig

/-- `_in_quiet_hours` at an hour of the day. -/
def inQuietHours (config : ProactiveConfig) (hour : Int) : Bool :=
  let start := config.quietStartHour
  let finish := config.quietEndHour
  if start = finish then false
  else if start < finish then start ≤ hour && hour < finish
  else hour ≥ start || hour < finish

def allowed (config : ProactiveConfig) : List String :=
  if config.allowedCategories = [] then triggerKinds.map TriggerKind.value
  else config.allowedCategories

end ProactiveConfig

namespace ProactiveEngine

variable {Time Outcome : Type}

def emit (engine : ProactiveEngine Time) (eventType : EventType)
    (payload : List (String × Json)) : ProactiveEngine Time :=
  { engine with events := engine.events ++ [{ eventType, taskId := "", payload }] }

def note (engine : ProactiveEngine Time) (act : ProactiveAct Time) : ProactiveEngine Time :=
  { engine with history := engine.history ++ [act] }

/-- The proposal is in this state from now on. -/
def settle (engine : ProactiveEngine Time) (proposal : ProactiveProposal)
    (state : ProposalState) : ProactiveEngine Time :=
  { engine with proposals := engine.proposals.set proposal.id { proposal with state } }

/-- `_require`. -/
def require (engine : ProactiveEngine Time) (proposalId : String) :
    Except Error ProactiveProposal :=
  match engine.proposals.get proposalId with
  | some proposal => .ok proposal
  | none => .error (.domainValidation ("unknown proposal " ++ Text.repr proposalId))

def approve (engine : ProactiveEngine Time) (proposalId : String) :
    Except Error ProactiveProposal × ProactiveEngine Time :=
  match engine.require proposalId with
  | .error error => (.error error, engine)
  | .ok proposal =>
      if proposal.state ≠ .proposed then
        (.error (.domainValidation "proposal already decided"), engine)
      else
        (.ok { proposal with state := .approved },
          (engine.settle proposal .approved).note (.approved proposalId))

def reject (engine : ProactiveEngine Time) (proposalId : String) :
    Except Error ProactiveProposal × ProactiveEngine Time :=
  match engine.require proposalId with
  | .error error => (.error error, engine)
  | .ok proposal =>
      if proposal.state ≠ .proposed then
        (.error (.domainValidation "proposal already decided"), engine)
      else
        (.ok { proposal with state := .rejected },
          (engine.settle proposal .rejected).note (.rejected proposalId))

/-- The end of `execute`, when the outcome is verified. -/
def finish (engine : ProactiveEngine Time) (proposal : ProactiveProposal) (verified : Bool)
    (shown : Json) : Except Error ProactiveProposal × ProactiveEngine Time :=
  let state : ProposalState := if verified then .executed else .failed
  (.ok { proposal with state },
    (engine.settle proposal state).emit .proactiveExecuted
      [("proposal_id", .str proposal.id), ("success", shown)])

/-- What `execute` does once `execute_fn` has returned. -/
def verify (engine : ProactiveEngine Time) (proposal : ProactiveProposal) (outcome : Outcome)
    (verifyFn : Option (VerifyFn Outcome)) :
    Except Error ProactiveProposal × ProactiveEngine Time :=
  match verifyFn with
  | none => engine.finish proposal true (.bool true)
  | some verifyFn =>
      match verifyFn outcome with
      | .error error => (.error error, engine)
      | .ok verdict =>
          match verdict.truth with
          | .error error => (.error error, engine)
          | .ok verified => engine.finish proposal verified verdict.shown

def execute (engine : ProactiveEngine Time) (proposalId : String)
    (executeFn : ExecuteEnd Outcome) (verifyFn : Option (VerifyFn Outcome)) :
    Except Error ProactiveProposal × ProactiveEngine Time :=
  match engine.require proposalId with
  | .error error => (.error error, engine)
  | .ok proposal =>
      if proposal.state ≠ .approved then
        (.error (.domainValidation "only approved proposals execute"), engine)
      else
        let engine := engine.note (.invoked proposalId)
        match executeFn with
        | .returned outcome => engine.verify proposal outcome verifyFn
        | .raised text =>
            (.ok { proposal with state := .failed },
              (engine.settle proposal .failed).emit .proactiveExecuted
                [("proposal_id", .str proposal.id), ("success", .bool false),
                  ("error", .str text)])
        -- The handler takes exceptions only.
        | .interrupted error => (.error error, engine)

/-! ## What decisions and executions leave alone -/

/-- The proposals made so far, each with its time. -/
def made (engine : ProactiveEngine Time) : List (ProactiveProposal × Time) :=
  engine.history.filterMap fun
    | .proposed proposal now => some (proposal, now)
    | _ => none

/-- What evaluations read and keep is the same. -/
structure Decides (engine next : ProactiveEngine Time) : Prop where
  clock : next.clock = engine.clock
  config : next.config = engine.config
  triggers : next.triggers = engine.triggers
  proposalTimes : next.proposalTimes = engine.proposalTimes
  lastFired : next.lastFired = engine.lastFired
  made : next.made = engine.made

theorem Decides.refl (engine : ProactiveEngine Time) : engine.Decides engine :=
  ⟨rfl, rfl, rfl, rfl, rfl, rfl⟩

theorem Decides.trans {engine middle last : ProactiveEngine Time}
    (first : engine.Decides middle) (second : middle.Decides last) : engine.Decides last where
  clock := second.clock.trans first.clock
  config := second.config.trans first.config
  triggers := second.triggers.trans first.triggers
  proposalTimes := second.proposalTimes.trans first.proposalTimes
  lastFired := second.lastFired.trans first.lastFired
  made := second.made.trans first.made

theorem decides_settle (engine : ProactiveEngine Time) (proposal : ProactiveProposal)
    (state : ProposalState) : engine.Decides (engine.settle proposal state) :=
  ⟨rfl, rfl, rfl, rfl, rfl, rfl⟩

theorem decides_emit (engine : ProactiveEngine Time) (eventType : EventType)
    (payload : List (String × Json)) : engine.Decides (engine.emit eventType payload) :=
  ⟨rfl, rfl, rfl, rfl, rfl, rfl⟩

theorem decides_note (engine : ProactiveEngine Time) {act : ProactiveAct Time}
    (decision : ∀ proposal now, act ≠ .proposed proposal now) :
    engine.Decides (engine.note act) := by
  refine ⟨rfl, rfl, rfl, rfl, rfl, ?_⟩
  unfold made note
  rw [List.filterMap_append]
  cases act with
  | proposed proposal now => exact (decision proposal now rfl).elim
  | _ => exact List.append_nil _

theorem decides_approve (engine : ProactiveEngine Time) (proposalId : String) :
    engine.Decides (engine.approve proposalId).2 := by
  unfold approve
  cases engine.require proposalId with
  | error error => exact .refl engine
  | ok proposal =>
      dsimp only
      split
      · exact .refl engine
      · exact (engine.decides_settle proposal .approved).trans (decides_note _ nofun)

theorem decides_reject (engine : ProactiveEngine Time) (proposalId : String) :
    engine.Decides (engine.reject proposalId).2 := by
  unfold reject
  cases engine.require proposalId with
  | error error => exact .refl engine
  | ok proposal =>
      dsimp only
      split
      · exact .refl engine
      · exact (engine.decides_settle proposal .rejected).trans (decides_note _ nofun)

theorem decides_verify (engine : ProactiveEngine Time) (proposal : ProactiveProposal)
    (outcome : Outcome) (verifyFn : Option (VerifyFn Outcome)) :
    engine.Decides (engine.verify proposal outcome verifyFn).2 := by
  have finished (verified : Bool) (shown : Json) :
      engine.Decides (engine.finish proposal verified shown).2 :=
    (engine.decides_settle proposal _).trans (decides_emit _ _ _)
  unfold verify
  cases verifyFn with
  | none => exact finished _ _
  | some verifyFn =>
      dsimp only
      split
      · exact .refl engine
      · split
        · exact .refl engine
        · exact finished _ _

theorem decides_execute (engine : ProactiveEngine Time) (proposalId : String)
    (executeFn : ExecuteEnd Outcome) (verifyFn : Option (VerifyFn Outcome)) :
    engine.Decides (engine.execute proposalId executeFn verifyFn).2 := by
  unfold execute
  cases engine.require proposalId with
  | error error => exact .refl engine
  | ok proposal =>
      dsimp only
      split
      · exact .refl engine
      · have invoked : engine.Decides (engine.note (.invoked proposalId)) :=
          decides_note engine nofun
        cases executeFn with
        | returned outcome => exact invoked.trans (decides_verify _ proposal outcome verifyFn)
        | raised text =>
            exact (invoked.trans (decides_settle _ proposal .failed)).trans (decides_emit _ _ _)
        | interrupted error => exact invoked

section Evaluation

variable [LinearOrder Time] [Sub Time] [Zero Time]

/-- Proposals of more than an hour ago no longer count. -/
def prune (engine : ProactiveEngine Time) (now : Time) : ProactiveEngine Time :=
  { engine with
    proposalTimes := engine.proposalTimes.filter fun time => now - time < engine.clock.hour }

/-- A fired trigger whose suppressions have been passed: a proposal under a new id. -/
def propose (engine : ProactiveEngine Time) (now : Time) (proposal : ProactiveProposal) :
    Option ProactiveProposal × ProactiveEngine Time :=
  let engine := { engine with
    proposals := engine.proposals.set proposal.id proposal
    proposalTimes := engine.proposalTimes ++ [now]
    lastFired := engine.lastFired.set (proposal.triggerId, proposal.subject) now }
  let engine := (engine.note (.proposed proposal now)).emit .proactiveTriggered
    [("trigger_id", .str proposal.triggerId), ("proposal_id", .str proposal.id)]
  if !engine.config.requireApproval && proposal.risk = .low then
    (some { proposal with state := .approved }, engine.settle proposal .approved)
  else (some proposal, engine)

/-- The clock is read for the quiet hours, and again for the time of the proposal. -/
def evaluate (engine : ProactiveEngine Time) (id : String) (quietReading now : Time)
    (triggerId subject : String) (risk : LearningRisk) (summary : String) :
    Option ProactiveProposal × ProactiveEngine Time :=
  match engine.triggers.get triggerId with
  | none => (none, engine)
  | some trigger =>
      if !engine.config.enabled || !trigger.enabled then (none, engine)
      else if trigger.kind.value ∉ engine.config.allowed then (none, engine)
      else if engine.config.inQuietHours (engine.clock.utcHour quietReading) then (none, engine)
      else
        let last := (engine.lastFired.get (triggerId, subject)).getD 0
        if now - last < trigger.cooldownS then (none, engine)
        else
          let engine := engine.prune now
          if engine.config.maxPerHour ≤ engine.proposalTimes.length then (none, engine)
          else
            engine.propose now
              { id, triggerId, subject, risk
                summary := if summary = "" then trigger.summary else summary }

/-- How an evaluation ends: it is suppressed before or behind the pruning, or it proposes. -/
inductive Evaluated (engine : ProactiveEngine Time) (id : String) (quietReading now : Time)
    (triggerId subject : String) (risk : LearningRisk) :
    Option ProactiveProposal × ProactiveEngine Time → Prop
  | suppressed : Evaluated engine id quietReading now triggerId subject risk (none, engine)
  | capped : Evaluated engine id quietReading now triggerId subject risk
      (none, engine.prune now)
  | proposed (trigger : ProactiveTrigger Time) (summary : String)
      (found : engine.triggers.get triggerId = some trigger)
      (awake : engine.config.inQuietHours (engine.clock.utcHour quietReading) = false)
      (cooled :
        trigger.cooldownS ≤ now - (engine.lastFired.get (triggerId, subject)).getD 0)
      (room : ((engine.prune now).proposalTimes.length : Int) < engine.config.maxPerHour) :
      Evaluated engine id quietReading now triggerId subject risk
        ((engine.prune now).propose now { id, triggerId, subject, risk, summary })

theorem evaluated (engine : ProactiveEngine Time) (id : String) (quietReading now : Time)
    (triggerId subject : String) (risk : LearningRisk) (summary : String) :
    engine.Evaluated id quietReading now triggerId subject risk
      (engine.evaluate id quietReading now triggerId subject risk summary) := by
  unfold evaluate
  cases found : engine.triggers.get triggerId with
  | none => exact .suppressed
  | some trigger =>
      dsimp only
      split
      · exact .suppressed
      · split
        · exact .suppressed
        · split
          · exact .suppressed
          · next awake =>
              split
              · exact .suppressed
              · next cooled =>
                  split
                  · exact .capped
                  · next room =>
                      exact .proposed trigger _ found (Bool.eq_false_iff.mpr awake)
                        (not_lt.mp cooled) (Int.not_le.mp room)

end Evaluation

end ProactiveEngine

/-- A call of the engine: what it finds new, and how the callables end. -/
inductive ProactiveCall (Time Outcome : Type)
  | evaluate (id : String) (quietReading now : Time) (triggerId subject : String)
      (risk : LearningRisk) (summary : String)
  | approve (proposalId : String)
  | reject (proposalId : String)
  | execute (proposalId : String) (executeFn : ExecuteEnd Outcome)
      (verifyFn : Option (VerifyFn Outcome))

namespace ProactiveEngine

variable {Time Outcome : Type} [LinearOrder Time] [Sub Time] [Zero Time]

/-- A call is made; the id of a new proposal has not been in use. -/
def step : StepFunction (ProactiveEngine Time) (ProactiveCall Time Outcome)
  | engine, .evaluate id quietReading now triggerId subject risk summary =>
      if (engine.proposals.get id).isSome then none
      else some (engine.evaluate id quietReading now triggerId subject risk summary).2
  | engine, .approve proposalId => some (engine.approve proposalId).2
  | engine, .reject proposalId => some (engine.reject proposalId).2
  | engine, .execute proposalId executeFn verifyFn =>
      some (engine.execute proposalId executeFn verifyFn).2

/-- A new engine with its triggers. -/
def start (clock : ProactiveClock Time) (config : ProactiveConfig)
    (triggers : Dict String (ProactiveTrigger Time)) : ProactiveEngine Time :=
  { clock, config, triggers }

end ProactiveEngine

end Raphael.Agent.Proactive
