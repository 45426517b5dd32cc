import Raphael.Agent.Planner.PlanValidator
import Raphael.Security.PolicyEngine
import Raphael.Tools.ToolRegistry

/-! # Recovery planning

Every replacement plan passes structure validation, risk assessment and policy
before it may execute, and no plan is tried twice. -/

namespace Raphael.Agent.Recovery

open Core
open Foundation
open Agent.Planner
open Security
open Tools

/-- How plans are identified: the model serializer and the digest. -/
structure PlanIdentity where
  modelDumpJson : Json → String
  sha256 : String → String

/-- The fields that the serializer writes of a step. -/
def stepFields (step : PlanStep) : Json :=
  .obj [("id", .str step.id), ("created_at", .str step.createdAt),
    ("updated_at", .str step.updatedAt), ("description", .str step.description),
    ("dependencies", .arr (step.dependencies.map .str)),
    ("tools", .arr (step.tools.map .str)), ("risk", .str step.risk.value),
    ("verification", .str step.verification), ("arguments", .obj step.arguments),
    ("completion_criteria", .str step.completionCriteria)]

def planFields (plan : Plan) : Json :=
  .obj [("id", .str plan.id), ("created_at", .str plan.createdAt),
    ("updated_at", .str plan.updatedAt), ("goal", .str plan.goal),
    ("steps", .arr (plan.steps.map stepFields)),
    ("final_verification", .str plan.finalVerification)]

/-- The identity of a plan, by which replan loops are detected. -/
def planVersion (identity : PlanIdentity) (plan : Plan) : String :=
  identity.sha256 (identity.modelDumpJson (planFields plan))

/-- A provider of replacement plans acts on the world, and may raise. -/
abbrev ReplanProvider (World : Type u) :=
  String → Plan → String → World → Except Error Plan × World

structure RecoveryPlanner (World : Type u) where
  registry : ToolRegistry
  risk : RiskEngine := {}
  policy : PolicyEngine := {}
  replanProvider : Option (ReplanProvider World) := none
  agentId : String := ""

namespace RecoveryPlanner

variable {World : Type u} (platform : Platform) (identity : PlanIdentity)
  (planner : RecoveryPlanner World)

/-- The tools that the validator accepts. -/
def knownTools : List String := planner.registry.entries.map (·.tool.name)

/-- Risk and policy of one tool of a step, called without arguments. -/
def vetTool (taskId toolName : String) : Except Error Unit :=
  match planner.registry.get toolName with
  | none => .error (.planValidation ("unknown tool " ++ Text.repr toolName))
  | some tool =>
      -- The id that the call is given is not looked at.
      let assessment := planner.risk.assess platform taskId tool
        { id := "", taskId, tool := toolName } { agentId := planner.agentId }
      let (granted, reason) := planner.policy.evaluate assessment toolName planner.agentId
      if granted then .ok () else .error (.authorizationDenied taskId toolName reason)

/-- The checks of a candidate. -/
def vet (taskId : String) (candidate : Plan) (seenVersions : List String) :
    Except Error Unit := do
  if seenVersions.contains (planVersion identity candidate) then
    throw (.planValidation
      "replacement plan identical to a previous version (replan loop)")
  let validator : PlanValidator := { knownTools := planner.knownTools }
  let _ ← validator.validate candidate
  candidate.steps.forM fun step => step.tools.forM (planner.vetTool platform taskId)

/-- A fully vetted replacement plan; raises when there is none. -/
def requestReplan (taskId : String) (failedPlan : Plan) (reason : String)
    (seenVersions : List String) (world : World) : Except Error Plan × World :=
  match planner.replanProvider with
  | none => (.error (.planValidation "no replan provider configured"), world)
  | some provider =>
      let (proposed, world) := provider taskId failedPlan reason world
      (do
        let candidate ← proposed
        planner.vet platform identity taskId candidate seenVersions
        return candidate, world)

/-- What passes has not been tried, and passes whatever has been tried. -/
theorem vet_eq_ok {taskId : String} {candidate : Plan} {seenVersions : List String}
    (vetted : planner.vet platform identity taskId candidate seenVersions = .ok ()) :
    planVersion identity candidate ∉ seenVersions ∧
      planner.vet platform identity taskId candidate [] = .ok () := by
  by_cases seen : planVersion identity candidate ∈ seenVersions
  · simp [vet, seen, bind, Except.bind, throw, throwThe, MonadExceptOf.throw] at vetted
  · refine ⟨seen, ?_⟩
    simpa [vet, seen] using vetted

/-- A replacement plan is what the provider proposed, and it has passed. -/
theorem requestReplan_eq_ok {taskId reason : String} {failedPlan candidate : Plan}
    {seenVersions : List String} {world next : World}
    (replanned : planner.requestReplan platform identity taskId failedPlan reason
      seenVersions world = (.ok candidate, next)) :
    ∃ provider, planner.replanProvider = some provider ∧
      provider taskId failedPlan reason world = (.ok candidate, next) ∧
      planner.vet platform identity taskId candidate seenVersions = .ok () := by
  unfold requestReplan at replanned
  cases provided : planner.replanProvider with
  | none => simp [provided] at replanned
  | some provider =>
      simp only [provided, Prod.mk.injEq] at replanned
      refine ⟨provider, rfl, ?_⟩
      rcases except_bind_eq_ok.mp replanned.1 with ⟨plan, isPlan, checked⟩
      rcases except_bind_eq_ok.mp checked with ⟨_, vetted, same⟩
      cases same
      exact ⟨Prod.ext isPlan replanned.2, vetted⟩

/-- A replacement plan has not been tried. -/
theorem requestReplan_fresh {taskId reason : String} {failedPlan candidate : Plan}
    {seenVersions : List String} {world next : World}
    (replanned : planner.requestReplan platform identity taskId failedPlan reason
      seenVersions world = (.ok candidate, next)) :
    planVersion identity candidate ∉ seenVersions := by
  rcases planner.requestReplan_eq_ok platform identity replanned with ⟨_, _, _, vetted⟩
  exact (planner.vet_eq_ok platform identity vetted).1

end RecoveryPlanner

end Raphael.Agent.Recovery
