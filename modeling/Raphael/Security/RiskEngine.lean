import Raphael.Core.Domain

/-! # Risk assessment

Risk is derived from declared capabilities first; scanning the arguments is
defense in depth. -/

namespace Raphael.Security

open Core

/-- What the assessment asks the operating system and the Unicode tables. -/
structure Platform where
  /-- `text.lower()`. -/
  lower : String → String
  /-- `os.path.basename(path)`. -/
  basename : String → String
  /-- `Path(value).is_absolute()`. -/
  isAbsolute : String → Bool
  /-- `Path(value).resolve().relative_to(Path(root).resolve())` does not raise. -/
  isBelow : (root value : String) → Bool

/-- `_LEVEL_ORDER`. -/
def levelOrder : RiskLevel → Nat
  | .low => 0
  | .medium => 1
  | .high => 2
  | .critical => 3

def shellTokens : List String := [";", "&&", "||", "$(", "`", "|"]

def shellBinaries : List String :=
  ["cmd", "cmd.exe", "powershell", "powershell.exe", "pwsh", "pwsh.exe", "bash", "sh",
    "zsh", "fish", "dash", "wsl", "wsl.exe", "cscript", "cscript.exe", "wscript",
    "wscript.exe", "mshta", "mshta.exe", "rundll32", "rundll32.exe"]

def destructivePatterns : List String :=
  ["del /s", "rd /s", "rmdir /s", "format.com", "format c:", "format d:", "rm -rf /",
    "rm -rf ~", "rm -rf $home", "mkfs", "dd if=", ":()\x7b:|:&\x7d;", "powershell -enc",
    "powershell -encodedcommand", "pwsh -enc", "-encodedcommand", "invoke-expression",
    "iex(", "curl ", "wget ", "| powershell", "| pwsh", "| sh", "| bash",
    "git push --force", "git push -f", "git reset --hard", "git clean -fd",
    "git clean -fdx", "reg delete", "takeown", "cipher /w", "vssadmin delete", "bcdedit",
    "diskpart"]

structure RiskContext where
  agentId : String := ""
  environment : String := "local"
  root : String := ""

/-- What an assessment has found so far. -/
structure Findings where
  level : RiskLevel
  factors : List String := []

namespace Findings

def note (findings : Findings) (factor : String) : Findings :=
  { findings with factors := findings.factors ++ [factor] }

def escalate (findings : Findings) (target : RiskLevel) (factor : String) : Findings where
  level := if levelOrder target > levelOrder findings.level then target else findings.level
  factors := findings.factors ++ [factor]

/-- Escalate under a condition. -/
def escalateIf (findings : Findings) (condition : Bool) (target : RiskLevel)
    (factor : String) : Findings :=
  if condition then findings.escalate target factor else findings

end Findings

structure RiskEngine where
  allowShells : Bool := false

namespace RiskEngine

variable (platform : Platform) (engine : RiskEngine)

/-! ## The command of a subprocess tool -/

def assessExecutable (call : ToolCall) (findings : Findings) : Findings :=
  match Json.lookup "command" call.arguments with
  | some (.arr (.str program :: _)) =>
      if shellBinaries.contains (platform.lower (platform.basename program)) then
        if engine.allowShells then
          findings.note ("shell interpreter " ++ Text.repr program ++
            " explicitly allowed by operator")
        else
          findings.escalate .critical ("shell interpreter " ++ Text.repr program ++
            " requires explicit operator opt-in")
      else findings
  | _ => findings

/-- The strings among the values. -/
def texts (items : List Json) : List String :=
  items.filterMap fun item =>
    match item with
    | .str text => some text
    | _ => none

def assessCommand (call : ToolCall) (findings : Findings) : Findings :=
  match Json.lookup "command" call.arguments with
  | some (.arr (first :: rest)) =>
      let lowered := " " ++ platform.lower (Text.join " " (texts (first :: rest))) ++ " "
      match destructivePatterns.find? fun pattern => Text.contains pattern lowered with
      | some pattern =>
          findings.escalate .critical ("destructive command pattern " ++ Text.repr pattern)
      | none => findings
  | _ => findings

/-! ## The strings of the arguments -/

def scanString (tool : Tool) (context : RiskContext) (value key : String)
    (literalArgv : Bool) (findings : Findings) : Findings :=
  -- The text of a reply is neither a path nor passed to a shell.
  if tool.name == "agent.respond" && key == "text" then findings
  else if (Text.pathSegments value).contains ".." then
    findings.escalate .critical ("path traversal in " ++ Text.repr key)
  else
    let outside := platform.isAbsolute value && context.root != "" &&
      !platform.isBelow context.root value
    let findings := findings.escalateIf outside .high
      ("absolute path outside allowed root in " ++ Text.repr key)
    if shellTokens.any fun token => Text.contains token value then
      if literalArgv then
        findings.note ("shell-like tokens in " ++ Text.repr key ++
          " (passed literally, no shell)")
      else findings.escalate .high ("shell metacharacters in " ++ Text.repr key)
    else findings

/-- The argument is the argument vector of the terminal tool. -/
def isLiteralArgv (tool : Tool) (key : String) : Bool :=
  tool.name == "terminal.execute" && key == "command"

mutual
def scanValue (tool : Tool) (context : RiskContext) (key : String) (findings : Findings) :
    Json → Findings
  | .str text =>
      scanString platform tool context text key (isLiteralArgv tool key) findings
  | .arr items => scanItems tool context key findings 0 items
  | .obj fields => scanFields tool context (key ++ ".") findings fields
  | .null => findings
  | .bool _ => findings
  | .int _ => findings
  | .float _ => findings

/-- A string right inside a list is scanned under the key of the list. -/
def scanItems (tool : Tool) (context : RiskContext) (key : String) (findings : Findings)
    (index : Nat) : List Json → Findings
  | [] => findings
  | .str text :: rest =>
      scanItems tool context key
        (scanString platform tool context text (key ++ "[" ++ toString index ++ "]")
          (isLiteralArgv tool key) findings) (index + 1) rest
  | item :: rest =>
      scanItems tool context key
        (scanValue tool context (key ++ "[" ++ toString index ++ "]") findings item)
        (index + 1) rest

/-- The fields of an object, whose keys are reported behind `path`. -/
def scanFields (tool : Tool) (context : RiskContext) (path : String)
    (findings : Findings) : List (String × Json) → Findings
  | [] => findings
  | (key, value) :: rest =>
      scanFields tool context path
        (scanValue tool context (path ++ key) findings value) rest
end

/-! ## The assessment -/

/-- The capability baseline: a name is descriptive, a capability is a declaration
that cannot lower the base risk of the contract. -/
def assessCapabilities (tool : Tool) (findings : Findings) : Findings :=
  let capabilities := tool.capabilities.map platform.lower
  let name := platform.lower tool.name
  let mutates := capabilities.any fun capability =>
    Text.startsWith "filesystem.write" capability || capability == "filesystem.write" ||
      capability == "system.modify"
  let findings := findings.escalateIf (capabilities.contains "arbitrary-code-execution")
    .critical "arbitrary code execution capability"
  let findings := findings.escalateIf (capabilities.contains "subprocess") .high
    "subprocess capability"
  let findings := findings.escalateIf mutates .high
    "filesystem/system mutation capability"
  let findings := findings.escalateIf
    (capabilities.contains "network.internet" || tool.networkAccess) .high
    "network capability"
  let findings := findings.escalateIf
    (capabilities.contains "credential.read" || tool.secretsAccess) .critical
    "credential access capability"
  if ["delete", "remove", "destroy", "rm "].any (Text.contains · name) then
    findings.escalate .critical ("destructive tool name: " ++ tool.name)
  else if ["write", "modify", "install", "overwrite"].any (Text.contains · name) then
    findings.escalate .high ("mutating tool name: " ++ tool.name)
  else findings

/-- Everything an assessment finds, from the declared level on. -/
def findings (tool : Tool) (call : ToolCall) (context : RiskContext) : Findings :=
  let found := assessCapabilities platform tool { level := tool.riskLevel }
  let found :=
    if (tool.capabilities.map platform.lower).contains "subprocess" then
      assessCommand platform call (assessExecutable platform engine call found)
    else found
  scanFields platform tool context "" found call.arguments

def assess (taskId : String) (tool : Tool) (call : ToolCall) (context : RiskContext) :
    RiskAssessment :=
  let found := findings platform engine tool call context
  { taskId
    toolCallId := some call.id
    level := found.level
    factors :=
      if found.factors.isEmpty then ["base level for " ++ tool.name] else found.factors
    rationale := "capability-aware assessment for agent " ++
      (if context.agentId == "" then "default" else context.agentId) }

end RiskEngine

end Raphael.Security
