import Raphael.Agent.Planner.PlanValidator
import Raphael.Tools.ToolRegistry

/-! # Arguments at plan time and at run time

The planner validates the arguments of a step against the contracts of the registry,
without the capabilities of the tools, and the runner checks them against the tools
themselves. -/

namespace Raphael.Agent.Planner

open Core
open Foundation
open Tools

namespace PlanValidator

/-! ## The validator of a registry -/

/-- What a contract requires, by the name of its tool. -/
def requiredOf (entry : RegistryEntry) : Except Error (String × List String) := do
  let names ← CheckArguments.requiredNames
    ((entry.tool.inputSchema.get? "required").getD (.arr []))
  return (entry.tool.name, names)

/-- The part of a contract that the planner is given. -/
def schemaOf (entry : RegistryEntry) : String × Json :=
  (entry.tool.name, .obj [
    ("required", (entry.tool.inputSchema.get? "required").getD (.arr [])),
    ("properties", (entry.tool.inputSchema.get? "properties").getD (.obj []))])

/-- The validator of the planner that `agent_factory` builds. The tables are keyed by
name, so that the order of the tools plays no part. -/
def ofRegistry (registry : ToolRegistry) (knownTools : List String) :
    Except Error PlanValidator := do
  let requiredArgs ← registry.entries.mapM requiredOf
  return { knownTools, requiredArgs, schemas := registry.entries.map schemaOf }

variable {registry : ToolRegistry} {knownTools : List String} {validator : PlanValidator}
  {name : String} {tool : Tool}

/-- The requirements that the validator finds are those of the tool of the registry. -/
theorem requiredArgs_of_ofRegistry
    (configured : ofRegistry registry knownTools = .ok validator) (name : String) :
    Option.Rel (fun entry named => requiredOf entry = .ok named) (registry.entry name)
      (validator.requiredArgs.find? (·.1 == name)) := by
  rcases except_bind_eq_ok.mp configured with ⟨requiredArgs, required, same⟩
  cases same
  apply find_of_mapM_ok _ required
  intro entry answer made
  rcases except_bind_eq_ok.mp made with ⟨names, _, same⟩
  cases same
  rfl

theorem schemas_of_ofRegistry
    (configured : ofRegistry registry knownTools = .ok validator) (name : String) :
    validator.schemas.find? (·.1 == name) = (registry.entry name).map schemaOf := by
  rcases except_bind_eq_ok.mp configured with ⟨requiredArgs, _, same⟩
  cases same
  exact List.find?_map ..

theorem maxArgumentsBytes_of_ofRegistry
    (configured : ofRegistry registry knownTools = .ok validator) :
    validator.maxArgumentsBytes = 65536 := by
  rcases except_bind_eq_ok.mp configured with ⟨requiredArgs, _, same⟩
  cases same
  rfl

/-- The validator knows what the contract of a tool of the registry requires. -/
theorem required_of_ofRegistry
    (configured : ofRegistry registry knownTools = .ok validator)
    (found : registry.get name = some tool) :
    ∃ names, CheckArguments.requiredNames
        ((tool.inputSchema.get? "required").getD (.arr [])) = .ok names ∧
      ∀ parameter, parameter ∈ validator.required name ↔ parameter ∈ names := by
  have listed := requiredArgs_of_ofRegistry configured name
  rcases Option.map_eq_some_iff.mp found with ⟨entry, present, isTool⟩
  cases isTool
  rw [present] at listed
  generalize isListed : validator.requiredArgs.find? (·.1 == name) = named at listed
  cases listed with
  | some made =>
      rcases except_bind_eq_ok.mp made with ⟨names, areNames, same⟩
      cases same
      refine ⟨names, areNames, fun parameter => ?_⟩
      rw [mem_required, isListed]
      rfl

/-- The validator knows the properties that the contract declares. -/
theorem properties_of_ofRegistry
    (configured : ofRegistry registry knownTools = .ok validator)
    (found : registry.get name = some tool) :
    validator.properties name = .obj (CheckArguments.declaredProperties tool.inputSchema) := by
  rcases Option.map_eq_some_iff.mp found with ⟨entry, present, isTool⟩
  cases isTool
  have given : (schemaOf entry).2.get? "properties" =
      some ((entry.tool.inputSchema.get? "properties").getD (.obj [])) := rfl
  unfold properties CheckArguments.declaredProperties
  rw [schemas_of_ofRegistry configured, present, Option.map_some, Option.bind_some, given]
  cases (entry.tool.inputSchema.get? "properties").getD (.obj []) <;> rfl

/-- The validator checks the arguments of a step against the reduced contract. -/
theorem validateArguments_iff_contract
    (configured : ofRegistry registry knownTools = .ok validator)
    (found : registry.get name = some tool) (step : PlanStep) :
    validator.validateArguments step name = .ok () ↔
      CheckArguments.contract tool.inputSchema step.arguments = .ok [] := by
  rcases required_of_ofRegistry configured found with ⟨names, required, same⟩
  rw [validator.validateArguments_eq_ok_iff (properties_of_ofRegistry configured found),
    CheckArguments.contract_eq_ok_nil_iff required]
  simp only [same]

/-- Of a name that is not in the registry nothing is required. -/
theorem validateArguments_of_unknown
    (configured : ofRegistry registry knownTools = .ok validator)
    (unknown : registry.get name = none) (step : PlanStep) :
    validator.validateArguments step name = .ok () := by
  have absent : registry.entry name = none := Option.map_eq_none_iff.mp unknown
  have listed := requiredArgs_of_ofRegistry configured name
  have noSchema := schemas_of_ofRegistry configured name
  rw [absent] at listed noSchema
  generalize isListed : validator.requiredArgs.find? (·.1 == name) = named at listed
  cases listed
  have properties : validator.properties name = .obj [] := by
    rw [properties, noSchema]
    rfl
  apply (validator.validateArguments_eq_ok_iff properties).mpr
  refine ⟨fun parameter member => ?_, rfl⟩
  rw [mem_required, isListed] at member
  cases member

/-! ## The JSON Schema validator -/

/-- `type` in JSON Schema, of the types that a contract checks. Here a boolean is no
number. -/
def isType (typeName : String) (value : Json) : Bool :=
  match typeName, value with
  | "string", .str _ => true
  | "array", .arr _ => true
  | "object", .obj _ => true
  | "boolean", .bool _ => true
  | "number", .int _ => true
  | "number", .float _ => true
  | _, _ => not (["string", "array", "object", "boolean", "number"].contains typeName)

/-- What the schema of a property says of the type of a value. -/
def allowsType (schema value : Json) : Bool :=
  match schema with
  | .bool allowed => allowed
  | .obj fields =>
      match Json.lookup "type" fields with
      | some (.str typeName) => isType typeName value
      | _ => true
  -- Anything else is no schema, and raises.
  | _ => false

/-- What JSON Schema says of arguments that fail no rule. -/
structure Draft202012 (schemaErrors : SchemaErrors) : Prop where
  required : ∀ schema arguments names, schemaErrors schema arguments = .ok [] →
    CheckArguments.requiredNames ((schema.get? "required").getD (.arr [])) = .ok names →
    ∀ name ∈ names, CheckArguments.hasKey arguments name = true
  types : ∀ schema arguments, schemaErrors schema arguments = .ok [] →
    ∀ property ∈ CheckArguments.declaredProperties schema, ∀ value,
      Json.lookup property.1 arguments = some value → allowsType property.2 value = true

theorem hasType_of_isType {typeName : String} {value : Json}
    (typed : isType typeName value = true) : CheckArguments.hasType typeName value = true := by
  unfold isType at typed
  split at typed
  · rfl
  · rfl
  · rfl
  · rfl
  · rfl
  · rfl
  · unfold CheckArguments.hasType
    split <;> first | rfl | exact typed

/-- A value of the type that JSON Schema allows is no problem of the contract. -/
theorem typeProblem_of_allowsType {arguments : Arguments} {property : String × Json}
    (allowed : ∀ value, Json.lookup property.1 arguments = some value →
      allowsType property.2 value = true) :
    CheckArguments.typeProblem arguments property = none := by
  unfold CheckArguments.typeProblem
  split
  · next value typeName given declared =>
      have typed : isType typeName value = true := by
        have allowed := allowed value given
        unfold allowsType at allowed
        unfold CheckArguments.declaredType at declared
        grind
      rw [if_pos (hasType_of_isType typed)]
  · rfl

/-- The contract has no problem where its full schema has none. -/
theorem contract_of_schemaErrors {schemaErrors : SchemaErrors}
    (draft : Draft202012 schemaErrors) {schema : Json} {arguments : Arguments}
    {names : List String}
    (required : CheckArguments.requiredNames ((schema.get? "required").getD (.arr [])) =
      .ok names)
    (conforms : schemaErrors schema arguments = .ok []) :
    CheckArguments.contract schema arguments = .ok [] := by
  apply (CheckArguments.contract_eq_ok_nil_iff required).mpr
  refine ⟨draft.required schema arguments names conforms required, ?_⟩
  apply List.filterMap_eq_nil_iff.mpr
  intro property member
  exact typeProblem_of_allowsType (draft.types schema arguments conforms property member)

/-! ## Agreement -/

/-- No tool of a step has a problem with the arguments of the step. -/
def ChecksPass (schemaErrors : SchemaErrors) (registry : ToolRegistry) (plan : Plan) :
    Prop :=
  ∀ step ∈ plan.steps, ∀ name ∈ step.tools, ∀ tool, registry.get name = some tool →
    checkArguments schemaErrors tool step.arguments = .ok []

/-- What the validator raises is what it raises of the arguments of a step. -/
def RejectsArguments (validator : PlanValidator) (plan : Plan) : Prop :=
  ∃ error, validator.validate plan = .error error ∧
    ∃ step ∈ plan.steps, ∃ name ∈ step.tools,
      validator.validateArguments step name = .error error

/-- The two checks agree on the plan. -/
def Agree (schemaErrors : SchemaErrors) (registry : ToolRegistry)
    (validator : PlanValidator) (plan : Plan) : Prop :=
  (validator.validate plan = .ok plan → ChecksPass schemaErrors registry plan) ∧
    (ChecksPass schemaErrors registry plan → ¬ RejectsArguments validator plan)

def isExternal (tool : Tool) : Bool := tool.capabilities.contains "mcp-external"

/-- The arguments of each external tool keep the structural limits and fail no rule of
its schema. -/
def ExternalsConform (schemaErrors : SchemaErrors) (registry : ToolRegistry) (plan : Plan) :
    Prop :=
  ∀ step ∈ plan.steps, ∀ name ∈ step.tools, ∀ tool, registry.get name = some tool →
    isExternal tool = true →
      (CheckArguments.boundedValue 0 0 (.obj step.arguments)).1 = true ∧
        schemaErrors tool.inputSchema step.arguments = .ok []

theorem checkArguments_of_external {schemaErrors : SchemaErrors}
    (isExternal : isExternal tool = true) (arguments : Arguments) :
    checkArguments schemaErrors tool arguments =
      .ok (CheckArguments.external schemaErrors tool.inputSchema arguments) :=
  if_pos isExternal

theorem checkArguments_of_internal {schemaErrors : SchemaErrors}
    (isInternal : ¬ isExternal tool = true) (arguments : Arguments) :
    checkArguments schemaErrors tool arguments =
      CheckArguments.contract tool.inputSchema arguments :=
  if_neg isInternal

/-- What the tool accepts, the validator accepts. -/
theorem validateArguments_of_checkArguments {schemaErrors : SchemaErrors}
    (draft : Draft202012 schemaErrors)
    (configured : ofRegistry registry knownTools = .ok validator)
    (found : registry.get name = some tool) {step : PlanStep}
    (passes : checkArguments schemaErrors tool step.arguments = .ok []) :
    validator.validateArguments step name = .ok () := by
  apply (validateArguments_iff_contract configured found step).mpr
  by_cases kind : isExternal tool = true
  · rw [checkArguments_of_external kind, Except.ok.injEq, CheckArguments.external_eq_nil_iff]
      at passes
    rcases required_of_ofRegistry configured found with ⟨names, required, _⟩
    exact contract_of_schemaErrors draft required passes.2.2
  · rw [checkArguments_of_internal kind] at passes
    exact passes

/-- Of a step that the validator accepts, an external tool checks what the validator
does not, and any other tool checks the same. -/
theorem checkArguments_iff_of_validateStep {schemaErrors : SchemaErrors}
    (configured : ofRegistry registry knownTools = .ok validator)
    (found : registry.get name = some tool) {step : PlanStep}
    (valid : validator.validateStep step = .ok ()) (named : name ∈ step.tools) :
    checkArguments schemaErrors tool step.arguments = .ok [] ↔
      (isExternal tool = true →
        (CheckArguments.boundedValue 0 0 (.obj step.arguments)).1 = true ∧
          schemaErrors tool.inputSchema step.arguments = .ok []) := by
  rcases validator.of_validateStep valid with ⟨short, accepted⟩
  by_cases kind : isExternal tool = true
  · rw [maxArgumentsBytes_of_ofRegistry configured] at short
    have within : (Json.obj step.arguments).defaultText.length ≤ 65536 := short
    rw [checkArguments_of_external kind, Except.ok.injEq, CheckArguments.external_eq_nil_iff,
      and_iff_right within]
    exact ⟨fun conforms _ => conforms, fun conforms => conforms kind⟩
  · rw [checkArguments_of_internal kind,
      ← validateArguments_iff_contract configured found step]
    exact iff_of_true (accepted name named) fun isKind => absurd isKind kind

/-- The two checks agree on a plan exactly if, where the validator accepts it, its
external tools have no problem that only they look for. -/
theorem agree_iff {schemaErrors : SchemaErrors} (draft : Draft202012 schemaErrors)
    (registry : ToolRegistry) (knownTools : List String) {validator : PlanValidator}
    (configured : ofRegistry registry knownTools = .ok validator) (plan : Plan) :
    Agree schemaErrors registry validator plan ↔
      (validator.validate plan = .ok plan → ExternalsConform schemaErrors registry plan) := by
  have never : ChecksPass schemaErrors registry plan → ¬ RejectsArguments validator plan := by
    rintro passes ⟨error, _, step, member, name, named, raised⟩
    have accepted : validator.validateArguments step name = .ok () := by
      cases found : registry.get name with
      | none => exact validateArguments_of_unknown configured found step
      | some tool =>
          exact validateArguments_of_checkArguments draft configured found
            (passes step member name named tool found)
    rw [accepted] at raised
    cases raised
  have same : validator.validate plan = .ok plan →
      (ChecksPass schemaErrors registry plan ↔ ExternalsConform schemaErrors registry plan) := by
    intro valid
    have each : ∀ step ∈ plan.steps, ∀ name ∈ step.tools, ∀ tool,
        registry.get name = some tool → _ :=
      fun step member name named tool found =>
        @checkArguments_iff_of_validateStep _ _ _ _ _ schemaErrors configured found step
          (validator.validateStep_of_validate valid member) named
    constructor
    · intro passes step member name named tool found
      exact (each step member name named tool found).mp (passes step member name named tool found)
    · intro conform step member name named tool found
      exact (each step member name named tool found).mpr
        (conform step member name named tool found)
  unfold Agree
  rw [and_iff_left never]
  exact forall_congr' same

/-! ## Arguments that are nested too deeply -/

/-- The rules of `required` and of the types of `properties`. -/
def topLevelRules : SchemaErrors := fun schema arguments => do
  let names ← CheckArguments.requiredNames ((schema.get? "required").getD (.arr []))
  let missing := names.filter fun name => !CheckArguments.hasKey arguments name
  let mistyped := (CheckArguments.declaredProperties schema).filter fun property =>
    (Json.lookup property.1 arguments).any fun value => !allowsType property.2 value
  return missing.map (fun _ => "required") ++ mistyped.map (fun _ => "type")

theorem topLevelRules_eq_nil {schema : Json} {arguments : Arguments}
    (conforms : topLevelRules schema arguments = .ok []) :
    ∃ names, CheckArguments.requiredNames ((schema.get? "required").getD (.arr [])) =
        .ok names ∧
      (∀ name ∈ names, CheckArguments.hasKey arguments name = true) ∧
      ∀ property ∈ CheckArguments.declaredProperties schema, ∀ value,
        Json.lookup property.1 arguments = some value → allowsType property.2 value = true := by
  rcases except_bind_eq_ok.mp conforms with ⟨names, areNames, same⟩
  have nothing := List.append_eq_nil_iff.mp (Except.ok.inj same)
  refine ⟨names, areNames, ?_, ?_⟩
  · simpa using nothing.1
  · intro property member value given
    have typed := List.filter_eq_nil_iff.mp (List.map_eq_nil_iff.mp nothing.2) property member
    simpa [given] using typed

theorem draft202012_topLevelRules : Draft202012 topLevelRules where
  required _ _ names conforms areNames := by
    rcases topLevelRules_eq_nil conforms with ⟨others, areOthers, present, _⟩
    cases areNames.symm.trans areOthers
    exact present
  types _ _ conforms := by
    rcases topLevelRules_eq_nil conforms with ⟨_, _, _, typed⟩
    exact typed

def treeTool : Tool where
  name := "mcp.tree"
  capabilities := ["mcp-external"]
  inputSchema := .obj [("type", .str "object"),
    ("properties", .obj [("tree", .obj [("type", .str "array")])]),
    ("required", .arr [.str "tree"])]

def treeRegistry : ToolRegistry where
  entries := [{ tool := treeTool, handler := fun _ => .result { success := true } }]

def treeValidator : PlanValidator where
  knownTools := ["mcp.tree"]
  requiredArgs := [("mcp.tree", ["tree"])]
  schemas := [("mcp.tree", .obj [("required", .arr [.str "tree"]),
    ("properties", .obj [("tree", .obj [("type", .str "array")])])])]

/-- A list in a list, and so on. -/
def nested : Nat → Json
  | 0 => .arr []
  | depth + 1 => .arr [nested depth]

def treePlan (depth : Nat) : Plan where
  id := "plan-1"
  goal := "store the tree"
  steps := [{
    id := "s1"
    description := "store it"
    tools := ["mcp.tree"]
    verification := "it is stored"
    arguments := [("tree", nested depth)]
    completionCriteria := "stored" }]
  finalVerification := "it is stored"

theorem treeValidator_configured :
    ofRegistry treeRegistry ["mcp.tree"] = .ok treeValidator := rfl

theorem treePlan_agree : Agree topLevelRules treeRegistry treeValidator (treePlan 2) := by
  apply (agree_iff draft202012_topLevelRules treeRegistry ["mcp.tree"]
    treeValidator_configured (treePlan 2)).mpr
  intro _ step member name named tool found _
  cases List.mem_singleton.mp member
  cases List.mem_singleton.mp named
  cases found
  exact ⟨by decide, rfl⟩

/-- A plan that the validator accepts asks for arguments that the tool refuses. -/
theorem deep_treePlan_disagrees :
    ofRegistry treeRegistry ["mcp.tree"] = .ok treeValidator ∧
      ¬ Agree topLevelRules treeRegistry treeValidator (treePlan 16) := by
  refine ⟨treeValidator_configured, fun agree => ?_⟩
  have accepted : treeValidator.validate (treePlan 16) = .ok (treePlan 16) := by
    rfl
  have passes := agree.1 accepted _ List.mem_cons_self "mcp.tree" List.mem_cons_self treeTool rfl
  have refused : checkArguments topLevelRules treeTool [("tree", nested 16)] =
      .ok ["MCP arguments exceed structural limits"] := by
    rfl
  cases refused.symm.trans passes

end PlanValidator

end Raphael.Agent.Planner
