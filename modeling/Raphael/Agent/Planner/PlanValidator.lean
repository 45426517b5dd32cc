import Mathlib.Data.List.Dedup
import Raphael.Agent.Planner.DependencyResolver
import Raphael.Foundation.FallibleFold
import Raphael.Tools.CheckArguments

/-! # Plan validation

The structural gate every plan passes before execution. -/

namespace Raphael.Agent.Planner

open Core
open Foundation
open Tools

structure PlanValidator where
  knownTools : List String := []
  /-- The required parameters of a tool. -/
  requiredArgs : List (String × List String) := []
  /-- The schemas that also declare types. -/
  schemas : List (String × Json) := []
  maxSteps : Nat := 50
  maxArgumentsBytes : Nat := 65536

namespace PlanValidator

variable (validator : PlanValidator)

/-- The required parameters of a tool, each once and sorted. -/
def required (name : String) : List String :=
  let names := ((validator.requiredArgs.find? (·.1 == name)).map (·.2)).getD []
  names.dedup.insertionSort (· ≤ ·)

/-- The properties that the schema of a tool declares. -/
def properties (name : String) : Json :=
  match (validator.schemas.find? (·.1 == name)).bind fun schema =>
      schema.2.get? "properties" with
  | some (.obj fields) => .obj fields
  | _ => .obj []

def describe (step : PlanStep) : String := "step " ++ Text.repr step.id

/-- The arguments of a step against one of its tools. -/
def validateArguments (step : PlanStep) (name : String) : Except Error Unit := do
  let required := validator.required name
  let missing := required.filter fun parameter =>
    !CheckArguments.hasKey step.arguments parameter
  if missing ≠ [] then
    throw (.planValidation (describe step ++ " tool " ++ Text.repr name ++
      " is missing required arguments: " ++ Text.join ", " missing))
  let problems ← CheckArguments.contract
    (.obj [("required", .arr (required.map .str)), ("properties", validator.properties name)])
    step.arguments
  let typeProblems := problems.filter fun problem =>
    !Text.startsWith "missing required" problem
  if typeProblems ≠ [] then
    throw (.planValidation (describe step ++ " tool " ++ Text.repr name ++ ": " ++
      Text.join "; " typeProblems))

def validateStep (step : PlanStep) : Except Error Unit := do
  if Text.isBlank step.description then
    throw (.planValidation (describe step ++ " has no description"))
  if step.tools = [] then
    throw (.planValidation (describe step ++ " names no tools"))
  let unknown := step.tools.filter fun name => !validator.knownTools.contains name
  if unknown ≠ [] then
    throw (.planValidation (describe step ++ " uses unknown tools: " ++
      Text.join ", " unknown))
  -- Escaped to ASCII, so that a character is a byte.
  if (Json.obj step.arguments).defaultText.length > max 1024 validator.maxArgumentsBytes then
    throw (.planValidation (describe step ++ " arguments exceed " ++
      toString (max 1024 validator.maxArgumentsBytes) ++ " bytes"))
  step.tools.forM (validator.validateArguments step)
  if step.risk = .critical then
    throw (.planValidation (describe step ++ " is CRITICAL risk and cannot be auto-planned"))
  if Text.isBlank step.completionCriteria then
    throw (.planValidation (describe step ++ " has no completion criteria"))
  if Text.isBlank step.verification then
    throw (.planValidation (describe step ++ " has no verification"))

/-- The plan, when it is runnable. -/
def validate (plan : Plan) : Except Error Plan := do
  if Text.isBlank plan.goal then throw (.planValidation "plan has no goal")
  if plan.steps = [] then throw (.planValidation "plan has no steps")
  if plan.steps.length > max 1 validator.maxSteps then
    throw (.planValidation ("plan has " ++ toString plan.steps.length ++ " steps (max " ++
      toString (max 1 validator.maxSteps) ++ ")"))
  let ids := plan.steps.map (·.id)
  if ids.contains "" then throw (.planValidation "every step needs an id")
  if ¬ ids.Nodup then throw (.planValidation "step ids must be unique")
  plan.steps.forM validator.validateStep
  let _ ← DependencyResolver.order plan.steps
  if Text.isBlank plan.finalVerification then
    throw (.planValidation "plan has no final verification")
  return plan

/-- The plan comes back as it is. -/
theorem eq_of_validate {validator : PlanValidator} {plan validated : Plan}
    (valid : validator.validate plan = .ok validated) : validated = plan := by
  unfold validate at valid
  simp only [bind, Except.bind, pure, Except.pure, throw, throwThe,
    MonadExceptOf.throw] at valid
  grind

/-! ## What an accepted plan has passed -/

theorem mem_required {name parameter : String} :
    parameter ∈ validator.required name ↔
      parameter ∈ ((validator.requiredArgs.find? (·.1 == name)).map (·.2)).getD [] := by
  rw [required, List.mem_insertionSort, List.mem_dedup]

theorem validateArguments_eq_ok_iff {step : PlanStep} {name : String}
    {fields : List (String × Json)} (properties : validator.properties name = .obj fields) :
    validator.validateArguments step name = .ok () ↔
      (∀ parameter ∈ validator.required name,
        CheckArguments.hasKey step.arguments parameter = true) ∧
      fields.filterMap (CheckArguments.typeProblem step.arguments) = [] := by
  have agreed : CheckArguments.contract
      (.obj [("required", .arr ((validator.required name).map .str)), ("properties", .obj fields)])
      step.arguments = .ok (CheckArguments.absentProblem (validator.required name) step.arguments ++
        fields.filterMap (CheckArguments.typeProblem step.arguments)) :=
    CheckArguments.contract_eq (CheckArguments.requiredNames_names _)
  unfold validateArguments
  rw [properties]
  dsimp only
  by_cases missing : ((validator.required name).filter fun parameter =>
      !CheckArguments.hasKey step.arguments parameter) = []
  · have present : ∀ parameter ∈ validator.required name,
        CheckArguments.hasKey step.arguments parameter = true := by
      simpa using missing
    rw [CheckArguments.absentProblem_eq_nil_iff.mpr present, List.nil_append] at agreed
    -- The texts of the problems with types all stay.
    have typed : ((fields.filterMap (CheckArguments.typeProblem step.arguments)).filter
        fun problem => !Text.startsWith "missing required" problem) =
          fields.filterMap (CheckArguments.typeProblem step.arguments) := by
      apply List.filter_eq_self.mpr
      intro problem member
      rcases List.mem_filterMap.mp member with ⟨property, _, found⟩
      rw [CheckArguments.not_startsWith_of_typeProblem found]
      rfl
    rw [if_neg (not_not.mpr missing), agreed, and_iff_right present]
    simp only [bind, Except.bind, pure, Except.pure, typed]
    split
    · next some => exact iff_of_false (by nofun) some
    · next none => exact iff_of_true rfl (not_not.mp none)
  · rw [if_pos missing]
    refine iff_of_false (by nofun) fun passes => missing ?_
    simpa using passes.1

/-- What the checks of one step ask for. -/
theorem validateStep_eq_ok_iff {step : PlanStep} :
    validator.validateStep step = .ok () ↔
      Text.isBlank step.description = false ∧ step.tools ≠ [] ∧
        (∀ name ∈ step.tools, name ∈ validator.knownTools) ∧
        (Json.obj step.arguments).defaultText.length ≤ max 1024 validator.maxArgumentsBytes ∧
        (∀ name ∈ step.tools, validator.validateArguments step name = .ok ()) ∧
        step.risk ≠ .critical ∧ Text.isBlank step.completionCriteria = false ∧
        Text.isBlank step.verification = false := by
  have unknown : (step.tools.filter fun name => !validator.knownTools.contains name) = [] ↔
      ∀ name ∈ step.tools, name ∈ validator.knownTools := by
    simp
  rw [← forM_eq_ok, ← unknown]
  unfold validateStep
  simp only [bind, Except.bind, pure, Except.pure, throw, throwThe, MonadExceptOf.throw]
  grind

/-- What the checks of a plan ask for. -/
theorem validate_eq_ok_iff {plan : Plan} :
    validator.validate plan = .ok plan ↔
      Text.isBlank plan.goal = false ∧ plan.steps ≠ [] ∧
        plan.steps.length ≤ max 1 validator.maxSteps ∧ "" ∉ plan.steps.map (·.id) ∧
        (plan.steps.map (·.id)).Nodup ∧
        (∀ step ∈ plan.steps, validator.validateStep step = .ok ()) ∧
        (∃ sorted, DependencyResolver.order plan.steps = .ok sorted) ∧
        Text.isBlank plan.finalVerification = false := by
  rw [← forM_eq_ok, ← List.contains_iff_mem]
  unfold validate
  simp only [bind, Except.bind, pure, Except.pure, throw, throwThe, MonadExceptOf.throw]
  generalize plan.steps.map (·.id) = ids
  cases DependencyResolver.order plan.steps with
  | error error =>
      simp only [reduceCtorEq, exists_false, false_and, and_false, iff_false]
      grind
  | ok sorted =>
      simp only [Except.ok.injEq, exists_eq', true_and]
      grind

theorem validateStep_of_validate {plan validated : Plan}
    (valid : validator.validate plan = .ok validated) {step : PlanStep}
    (member : step ∈ plan.steps) : validator.validateStep step = .ok () := by
  cases eq_of_validate valid
  have ⟨_, _, _, _, _, each, _⟩ := (validate_eq_ok_iff validator).mp valid
  exact each step member

theorem of_validateStep {step : PlanStep} (valid : validator.validateStep step = .ok ()) :
    (Json.obj step.arguments).defaultText.length ≤ max 1024 validator.maxArgumentsBytes ∧
      ∀ name ∈ step.tools, validator.validateArguments step name = .ok () :=
  have ⟨_, _, _, short, each, _⟩ := (validateStep_eq_ok_iff validator).mp valid
  ⟨short, each⟩

end PlanValidator

end Raphael.Agent.Planner
