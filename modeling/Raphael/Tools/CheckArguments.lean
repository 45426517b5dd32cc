import Raphael.Core.Domain
import Raphael.Core.Errors

/-! # Argument validation

The one check of arguments against a tool contract, shared by the plan validator,
the runner and the authorizer. -/

namespace Raphael.Tools

open Core

/-- The JSON Schema validator: the rules that the arguments fail, or an exception. -/
abbrev SchemaErrors := Json → Arguments → Except Error (List String)

namespace CheckArguments

/-! ## Structural limits of external tools -/

/-! `bounded` returns its verdict and the number of nodes it has counted. -/

mutual
def boundedValue (depth nodes : Nat) : Json → Bool × Nat
  | .arr items =>
      if depth > 16 || nodes + 1 > 2048 then (false, nodes + 1)
      else if items.length ≤ 256 then boundedItems (depth + 1) (nodes + 1) items
      else (false, nodes + 1)
  | .obj fields =>
      if depth > 16 || nodes + 1 > 2048 then (false, nodes + 1)
      else boundedFields (depth + 1) (nodes + 1) fields
  | .null => (!(depth > 16 || nodes + 1 > 2048), nodes + 1)
  | .bool _ => (!(depth > 16 || nodes + 1 > 2048), nodes + 1)
  | .int _ => (!(depth > 16 || nodes + 1 > 2048), nodes + 1)
  | .float _ => (!(depth > 16 || nodes + 1 > 2048), nodes + 1)
  | .str _ => (!(depth > 16 || nodes + 1 > 2048), nodes + 1)

def boundedItems (depth nodes : Nat) : List Json → Bool × Nat
  | [] => (true, nodes)
  | item :: rest =>
      match boundedValue depth nodes item with
      | (true, nodes) => boundedItems depth nodes rest
      | (false, nodes) => (false, nodes)

def boundedFields (depth nodes : Nat) : List (String × Json) → Bool × Nat
  | [] => (true, nodes)
  | (_, value) :: rest =>
      match boundedValue depth nodes value with
      | (true, nodes) => boundedFields depth nodes rest
      | (false, nodes) => (false, nodes)
end

/-- The check of an external tool, which validates against its full schema. -/
def external (schemaErrors : SchemaErrors) (schema : Json) (arguments : Arguments) :
    List String :=
  if (Json.obj arguments).defaultText.length > 65536 then
    ["MCP arguments exceed size limit"]
  else if (boundedValue 0 0 (.obj arguments)).1 then
    match schemaErrors schema arguments with
    | .ok rules => (rules.take 10).map ("MCP arguments fail schema rule: " ++ ·)
    | .error _ => ["MCP argument schema could not be validated"]
  else ["MCP arguments exceed structural limits"]

/-! ## Presence and types -/

def hasKey (arguments : Arguments) (key : String) : Bool := arguments.any (·.1 == key)

/-- The names iterating over `required` yields; anything but names of parameters
raises. -/
def requiredNames : Json → Except Error (List String)
  | .arr items => items.mapM fun item =>
      match item with
      | .str name => .ok name
      | other => .error (.other ("expected str instance, " ++ other.typeName ++ " found"))
  | .str text => .ok (text.toList.map Char.toString)
  | .obj fields => .ok (fields.map (·.1))
  | other => .error (.other ("'" ++ other.typeName ++ "' object is not iterable"))

/-- `isinstance` for the type names of the contract; other names are ignored. A
boolean is a number too. -/
def hasType (typeName : String) (value : Json) : Bool :=
  match typeName, value with
  | "string", .str _ => true
  | "array", .arr _ => true
  | "object", .obj _ => true
  | "boolean", .bool _ => true
  | "number", .int _ => true
  | "number", .float _ => true
  | "number", .bool _ => true
  | _, _ => not (["string", "array", "object", "boolean", "number"].contains typeName)

/-- The type name that a property declares. -/
def declaredType : Json → Option String
  | .str typeName => some typeName
  | .obj fields =>
      match Json.lookup "type" fields with
      | some (.str typeName) => some typeName
      | _ => none
  | _ => none

/-- The problem of one argument with one property. -/
def typeProblem (arguments : Arguments) (property : String × Json) : Option String :=
  match Json.lookup property.1 arguments, declaredType property.2 with
  | some value, some typeName =>
      if hasType typeName value then none
      else some ("argument " ++ Text.repr property.1 ++ " must be " ++ property.2.text ++
        ", got " ++ value.typeName)
  | _, _ => none

def contract (schema : Json) (arguments : Arguments) : Except Error (List String) := do
  let required ← requiredNames ((schema.get? "required").getD (.arr []))
  let missing := required.filter fun name => !hasKey arguments name
  let absent :=
    if missing.isEmpty then []
    else ["missing required arguments: " ++ Text.join ", " missing]
  match (schema.get? "properties").getD (.obj []) with
  | .obj properties => return absent ++ properties.filterMap (typeProblem arguments)
  | _ => return absent

/-! ## The check in its parts -/

/-- The problem of absent arguments. -/
def absentProblem (names : List String) (arguments : Arguments) : List String :=
  let missing := names.filter fun name => !hasKey arguments name
  if missing.isEmpty then []
  else ["missing required arguments: " ++ Text.join ", " missing]

/-- The properties that a contract declares, where they are an object. -/
def declaredProperties (schema : Json) : List (String × Json) :=
  match (schema.get? "properties").getD (.obj []) with
  | .obj properties => properties
  | _ => []

theorem absentProblem_eq_nil_iff {names : List String} {arguments : Arguments} :
    absentProblem names arguments = [] ↔ ∀ name ∈ names, hasKey arguments name = true := by
  simp [absentProblem]

theorem contract_eq {schema : Json} {arguments : Arguments} {names : List String}
    (required : requiredNames ((schema.get? "required").getD (.arr [])) = .ok names) :
    contract schema arguments =
      .ok (absentProblem names arguments ++
        (declaredProperties schema).filterMap (typeProblem arguments)) := by
  unfold contract declaredProperties
  rw [required]
  cases (schema.get? "properties").getD (.obj []) with
  | obj properties => rfl
  | null | bool _ | int _ | float _ | str _ | arr _ =>
      rw [List.filterMap_nil, List.append_nil]
      rfl

theorem contract_eq_ok_nil_iff {schema : Json} {arguments : Arguments} {names : List String}
    (required : requiredNames ((schema.get? "required").getD (.arr [])) = .ok names) :
    contract schema arguments = .ok [] ↔
      (∀ name ∈ names, hasKey arguments name = true) ∧
        (declaredProperties schema).filterMap (typeProblem arguments) = [] := by
  rw [contract_eq required, Except.ok.injEq, List.append_eq_nil_iff, absentProblem_eq_nil_iff]

theorem requiredNames_names (names : List String) :
    requiredNames (.arr (names.map .str)) = .ok names := by
  simp only [requiredNames]
  induction names with
  | nil => rfl
  | cons name rest induction =>
      rw [List.map_cons, List.mapM_cons, induction]
      rfl

/-- The text of a problem with a type is not that of absent arguments. -/
theorem not_startsWith_of_typeProblem {arguments : Arguments} {property : String × Json}
    {problem : String} (found : typeProblem arguments property = some problem) :
    Text.startsWith "missing required" problem = false := by
  unfold typeProblem at found
  split at found
  · split at found
    · cases found
    · cases found
      simp [Text.startsWith, String.toList_append, List.isPrefixOf]
  · cases found

theorem external_eq_nil_iff {schemaErrors : SchemaErrors} {schema : Json}
    {arguments : Arguments} :
    external schemaErrors schema arguments = [] ↔
      (Json.obj arguments).defaultText.length ≤ 65536 ∧
        (boundedValue 0 0 (.obj arguments)).1 = true ∧
        schemaErrors schema arguments = .ok [] := by
  unfold external
  split
  · next long => simp [Nat.not_le.mpr long]
  · next short =>
      rw [and_iff_right (Nat.not_lt.mp short)]
      split
      · next within =>
          rw [and_iff_right within]
          cases schemaErrors schema arguments with
          | ok rules => simp [List.take_eq_nil_iff]
          | error error => simp
      · next beyond => simp [beyond]

end CheckArguments

/-- The problems of the arguments; none when the call is valid. -/
def checkArguments (schemaErrors : SchemaErrors) (tool : Tool) (arguments : Arguments) :
    Except Error (List String) :=
  if tool.capabilities.contains "mcp-external" then
    .ok (CheckArguments.external schemaErrors tool.inputSchema arguments)
  else CheckArguments.contract tool.inputSchema arguments

end Raphael.Tools
