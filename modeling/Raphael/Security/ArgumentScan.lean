import Raphael.Core.Payload
import Raphael.Foundation.Dict
import Raphael.Foundation.Escalation
import Raphael.Security.RiskEngine

/-! # Risk of any arguments

The assessment of a call whose arguments are any Python values: beside what JSON has they
hold tuples, which are scanned as lists are, and sets, which are not. The level is at least
the declared one, grows with the capabilities and the arguments, and is CRITICAL where a
text of the arguments climbs out of its directory. -/

namespace Raphael.Security

open Core Foundation

/-- A call as it is assessed. -/
structure ScannedCall where
  id : String
  arguments : Dict String Payload

namespace ArgumentScan

variable (platform : Platform) (engine : RiskEngine)

/-! ## The assessment -/

/-- `call.arguments.get("command")`, where it is a list. -/
def commandOf (call : ScannedCall) : List Payload :=
  match call.arguments.get "command" with
  | some (.collection .list items) => items
  | _ => []

/-- `_assess_executable`. -/
def assessExecutable (call : ScannedCall) (findings : Findings) : Findings :=
  match commandOf call with
  | .str program :: _ =>
      if shellBinaries.contains (platform.lower (platform.basename program)) then
        if engine.allowShells then
          findings.note ("shell interpreter " ++ Text.repr program ++
            " explicitly allowed by operator")
        else
          findings.escalate .critical ("shell interpreter " ++ Text.repr program ++
            " requires explicit operator opt-in")
      else findings
  | _ => findings

/-- The strings among the values. -/
def texts (items : List Payload) : List String :=
  items.filterMap fun item =>
    match item with
    | .str text => some text
    | _ => none

/-- `_assess_command`. -/
def assessCommand (call : ScannedCall) (findings : Findings) : Findings :=
  match commandOf call with
  | [] => findings
  | first :: rest =>
      let lowered := " " ++ platform.lower (Text.join " " (texts (first :: rest))) ++ " "
      match destructivePatterns.find? fun pattern => Text.contains pattern lowered with
      | some pattern =>
          findings.escalate .critical ("destructive command pattern " ++ Text.repr pattern)
      | none => findings

mutual
/-- `_scan_value`. -/
def scanValue (tool : Tool) (context : RiskContext) (key : String) (findings : Findings) :
    Payload → Findings
  | .str text =>
      RiskEngine.scanString platform tool context text key (RiskEngine.isLiteralArgv tool key)
        findings
  | .collection .list items => scanItems tool context key findings 0 items
  | .collection .tuple items => scanItems tool context key findings 0 items
  | .dict entries => scanEntries tool context (key ++ ".") findings entries
  | .collection .set _ => findings
  | .collection .frozenset _ => findings
  | .scalar _ => findings

def scanItems (tool : Tool) (context : RiskContext) (key : String) (findings : Findings)
    (index : Nat) : List Payload → Findings
  | [] => findings
  | .str text :: rest =>
      scanItems tool context key
        (RiskEngine.scanString platform tool context text
          (key ++ "[" ++ toString index ++ "]") (RiskEngine.isLiteralArgv tool key) findings)
        (index + 1) rest
  | item :: rest =>
      scanItems tool context key
        (scanValue tool context (key ++ "[" ++ toString index ++ "]") findings item)
        (index + 1) rest

def scanEntries (tool : Tool) (context : RiskContext) (path : String) (findings : Findings) :
    List (PyKey × Payload) → Findings
  | [] => findings
  | (key, value) :: rest =>
      scanEntries tool context path
        (scanValue tool context (path ++ key.text) findings value) rest
end

/-- Everything that is found, from the declared level on. -/
def findings (tool : Tool) (call : ScannedCall) (context : RiskContext) : Findings :=
  let found := RiskEngine.assessCapabilities platform tool { level := tool.riskLevel }
  let found :=
    if (tool.capabilities.map platform.lower).contains "subprocess" then
      assessCommand platform call (assessExecutable platform engine call found)
    else found
  call.arguments.entries.foldl (fun found entry =>
    scanValue platform tool context entry.1 found entry.2) found

def assess (taskId : String) (tool : Tool) (call : ScannedCall) (context : RiskContext) :
    RiskAssessment :=
  let found := findings platform engine tool call context
  { taskId
    toolCallId := some call.id
    level := found.level
    factors :=
      if found.factors.isEmpty then ["base level for " ++ tool.name] else found.factors
    rationale := "capability-aware assessment for agent " ++
      (if context.agentId == "" then "default" else context.agentId) }

/-! ## JSON arguments -/

mutual
/-- A JSON value as Python has it. -/
def ofJson : Json → Payload
  | .null => .scalar "None"
  | .bool true => .scalar "True"
  | .bool false => .scalar "False"
  | .int value => .scalar (toString value)
  | .float text => .scalar text
  | .str text => .str text
  | .arr items => .collection .list (ofItems items)
  | .obj fields => .dict (ofFields fields)

def ofItems : List Json → List Payload
  | [] => []
  | item :: rest => ofJson item :: ofItems rest

def ofFields : List (String × Json) → List (PyKey × Payload)
  | [] => []
  | (key, value) :: rest => (.str key, ofJson value) :: ofFields rest
end

mutual
theorem scanValue_ofJson (tool : Tool) (context : RiskContext) : (value : Json) →
    (key : String) → (found : Findings) →
    scanValue platform tool context key found (ofJson value) =
      RiskEngine.scanValue platform tool context key found value
  | .null, _, _ => by simp only [ofJson, scanValue, RiskEngine.scanValue]
  | .bool true, _, _ => by simp only [ofJson, scanValue, RiskEngine.scanValue]
  | .bool false, _, _ => by simp only [ofJson, scanValue, RiskEngine.scanValue]
  | .int _, _, _ => by simp only [ofJson, scanValue, RiskEngine.scanValue]
  | .float _, _, _ => by simp only [ofJson, scanValue, RiskEngine.scanValue]
  | .str _, _, _ => by simp only [ofJson, scanValue, RiskEngine.scanValue]
  | .arr items, key, found => by
      simp only [ofJson, scanValue, RiskEngine.scanValue]
      exact scanItems_ofItems tool context items key 0 found
  | .obj fields, key, found => by
      simp only [ofJson, scanValue, RiskEngine.scanValue]
      exact scanEntries_ofFields tool context fields (key ++ ".") found

theorem scanItems_ofItems (tool : Tool) (context : RiskContext) : (items : List Json) →
    (key : String) → (index : Nat) → (found : Findings) →
    scanItems platform tool context key found index (ofItems items) =
      RiskEngine.scanItems platform tool context key found index items
  | [], _, _, _ => by simp only [ofItems, scanItems, RiskEngine.scanItems]
  | item :: rest, key, index, found => by
      have later := scanItems_ofItems tool context rest key (index + 1)
      cases item with
      | str text => simp only [ofItems, ofJson, scanItems, RiskEngine.scanItems, later]
      | bool flag =>
          cases flag <;>
            simp only [ofItems, ofJson, scanItems, RiskEngine.scanItems, scanValue,
              RiskEngine.scanValue, later]
      | null | int _ | float _ =>
          simp only [ofItems, ofJson, scanItems, RiskEngine.scanItems, scanValue,
            RiskEngine.scanValue, later]
      | arr inner =>
          have here := scanItems_ofItems tool context inner
          simp only [ofItems, ofJson, scanItems, RiskEngine.scanItems, scanValue,
            RiskEngine.scanValue, later, here]
      | obj fields =>
          have here := scanEntries_ofFields tool context fields
          simp only [ofItems, ofJson, scanItems, RiskEngine.scanItems, scanValue,
            RiskEngine.scanValue, later, here]

theorem scanEntries_ofFields (tool : Tool) (context : RiskContext) :
    (fields : List (String × Json)) → (path : String) → (found : Findings) →
    scanEntries platform tool context path found (ofFields fields) =
      RiskEngine.scanFields platform tool context path found fields
  | [], _, _ => by simp only [ofFields, scanEntries, RiskEngine.scanFields]
  | (key, value) :: rest, path, found => by
      simp only [ofFields, scanEntries, RiskEngine.scanFields, PyKey.text]
      rw [scanValue_ofJson tool context value, scanEntries_ofFields tool context rest]
end

/-- A call whose arguments are JSON, each under a key of its own. -/
def ofCall (call : ToolCall) (distinct : (call.arguments.map Prod.fst).Nodup) :
    ScannedCall where
  id := call.id
  arguments :=
    { entries := call.arguments.map fun entry => (entry.1, ofJson entry.2)
      distinct := by simpa [Function.comp_def] using distinct }

variable {call : ToolCall} (distinct : (call.arguments.map Prod.fst).Nodup)

theorem get_ofCall (key : String) :
    (ofCall call distinct).arguments.get key =
      (Json.lookup key call.arguments).map ofJson := by
  simp only [ofCall, Dict.get, Json.lookup, List.find?_map, Option.map_map,
    Function.comp_def]
  rfl

/-- The command is a list in JSON too. -/
theorem commandOf_ofCall :
    commandOf (ofCall call distinct) =
      match Json.lookup "command" call.arguments with
      | some (.arr items) => ofItems items
      | _ => [] := by
  unfold commandOf
  rw [get_ofCall]
  cases Json.lookup "command" call.arguments with
  | none => rfl
  | some value =>
      cases value with
      | bool flag => cases flag <;> simp [ofJson]
      | _ => simp [ofJson]

theorem texts_ofItems (items : List Json) : texts (ofItems items) = RiskEngine.texts items := by
  induction items with
  | nil => rfl
  | cons item rest induction =>
      unfold texts RiskEngine.texts at induction ⊢
      cases item with
      | bool flag => cases flag <;> simp [ofItems, ofJson, induction]
      | _ => simp [ofItems, ofJson, induction]

theorem scanFields_ofJson (tool : Tool) (context : RiskContext) (items : List (String × Json))
    (found : Findings) :
    (items.map fun entry => (entry.1, ofJson entry.2)).foldl (fun found entry =>
        scanValue platform tool context entry.1 found entry.2) found =
      RiskEngine.scanFields platform tool context "" found items := by
  induction items generalizing found with
  | nil => simp only [List.map_nil, List.foldl_nil, RiskEngine.scanFields]
  | cons entry rest induction =>
      rw [List.map_cons, List.foldl_cons, induction, scanValue_ofJson,
        RiskEngine.scanFields, String.empty_append]

theorem assessExecutable_ofCall (found : Findings) :
    assessExecutable platform engine (ofCall call distinct) found =
      RiskEngine.assessExecutable platform engine call found := by
  unfold assessExecutable RiskEngine.assessExecutable
  rw [commandOf_ofCall]
  cases Json.lookup "command" call.arguments with
  | none => rfl
  | some value =>
      cases value with
      | arr items =>
          cases items with
          | nil => rfl
          | cons first rest =>
              cases first with
              | bool flag => cases flag <;> simp [ofItems, ofJson]
              | _ => simp [ofItems, ofJson]
      | _ => rfl

theorem assessCommand_ofCall (found : Findings) :
    assessCommand platform (ofCall call distinct) found =
      RiskEngine.assessCommand platform call found := by
  unfold assessCommand RiskEngine.assessCommand
  rw [commandOf_ofCall]
  cases Json.lookup "command" call.arguments with
  | none => rfl
  | some value =>
      cases value with
      | arr items =>
          cases items with
          | nil => rfl
          | cons first rest =>
              dsimp only
              rw [← texts_ofItems]
              rfl
      | _ => rfl

theorem findings_ofCall (tool : Tool) (context : RiskContext) :
    findings platform engine tool (ofCall call distinct) context =
      RiskEngine.findings platform engine tool call context := by
  unfold findings RiskEngine.findings
  simp only [assessExecutable_ofCall, assessCommand_ofCall]
  exact scanFields_ofJson platform tool context call.arguments _

/-- On JSON arguments this is the assessment of the tool runner. -/
theorem assess_ofCall (taskId : String) (tool : Tool) (context : RiskContext) :
    assess platform engine taskId tool (ofCall call distinct) context =
      RiskEngine.assess platform engine taskId tool call context := by
  unfold assess RiskEngine.assess
  rw [findings_ofCall]
  rfl

end ArgumentScan

end Raphael.Security
