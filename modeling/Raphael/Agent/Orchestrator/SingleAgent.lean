import Raphael.Agent.Recovery.RecoveryVerdict
import Raphael.Foundation.Effect
import Raphael.Runtime.StateMachine

/-! # The single agent

One run of `SingleAgent` over a task: understanding, awareness, research, planning,
execution, verification, recovery and completion. What the agent coordinates acts on a
world and may raise. While the agent waits for it the operator may cancel the task;
between two such calls nobody else touches the task. -/

/-! ## What a run takes out of the outputs of its tools

The sources and the reply of an `AgentResult` are read from whatever the tools have
answered. A `for` over a value that is no list, no dict and no text raises. -/

namespace Raphael.Agent.Orchestrator

open Core
open Agent.Executor

/-- What is kept of a source. -/
structure SourceNote where
  title : String := ""
  origin : String := ""
  url : String := ""
  deriving DecidableEq

def notIterable (typeName : String) : Error :=
  .other ("'" ++ typeName ++ "' object is not iterable")

/-- What a `for` over a value goes through. -/
def iterated : Json → Except Error (List Json)
  | .arr items => .ok items
  | .obj fields => .ok (fields.map fun field => .str field.1)
  | .str text => .ok (text.toList.map fun character => .str character.toString)
  | .null => .error (notIterable "NoneType")
  | .bool _ => .error (notIterable "bool")
  | .int _ => .error (notIterable "int")
  | .float _ => .error (notIterable "float")

/-- The items that are dicts. -/
def dicts (items : List Json) : List (List (String × Json)) :=
  items.filterMap fun
    | .obj fields => some fields
    | _ => none

/-- `str(value.get(key, default))` of a dict. -/
def fieldText (fields : List (String × Json)) (key default : String) : String :=
  ((Json.lookup key fields).getD (.str default)).text

/-- The dict that a call has answered, if it succeeded with one. -/
def answeredFields (result : ToolResult) : Option (List (String × Json)) :=
  match result.success, result.output with
  | true, .obj fields => some fields
  | _, _ => none

/-- The text that a call has answered, if it succeeded with one. -/
def answeredText (result : ToolResult) : Option String :=
  match result.success, result.output with
  | true, .str text => some text
  | _, _ => none

/-! ## Sources -/

/-- `output.get("sources", [])`, gone through for dicts. -/
def sourcesIn (fields : List (String × Json)) :
    Except Error (List (List (String × Json))) := do
  let items ← iterated ((Json.lookup "sources" fields).getD (.arr []))
  return dicts items

/-- The sources that the results of an execution name. -/
def namedSources (execution : ExecutionResult) :
    Except Error (List (List (String × Json))) := do
  let named ← (execution.allToolResults.filterMap answeredFields).mapM sourcesIn
  return named.flatten.take 10

def SourceNote.ofFields (fields : List (String × Json)) : SourceNote where
  title := Text.take 500 (fieldText fields "title" "")
  origin := Text.take 200 (fieldText fields "origin" "")
  url := Text.take 2000 (fieldText fields "url" "")

/-! ## The reply -/

/-- The snippets of a search, as the provider is given them. -/
def searchDigest (sources : List Json) : String :=
  Text.take 16000 (Text.join "\n\n" ("Web search results (unverified):" ::
    (dicts (sources.take 10)).map fun source =>
      fieldText source "title" "Source" ++ " — " ++ fieldText source "url" "" ++ "\n" ++
        fieldText source "content" ""))

def searchLinks (sources : List Json) : String :=
  Text.join "\n" ((dicts (sources.take 5)).map fun source =>
    "- " ++ fieldText source "title" "Source" ++ ": " ++ fieldText source "url" "")

/-- The lists of sources that the results of a search hold. -/
def searchResults (results : List ToolResult) : List (List Json) :=
  (results.filterMap answeredFields).filterMap fun fields =>
    match Json.lookup "sources" fields with
    | some (.arr (source :: rest)) => some (source :: rest)
    | _ => none

/-- `name.split(".")[1]` of a tool of an MCP server. -/
def serverOf (name : String) : String :=
  String.ofList ((name.toList.drop 4).takeWhile (· ≠ '.'))

/-- The text blocks of an answer. -/
def contentText (fields : List (String × Json)) : Except Error String := do
  let blocks ← iterated ((Json.lookup "content" fields).getD (.arr []))
  return Text.join "\n" (((dicts blocks).filter fun block =>
    Json.lookup "type" block == some (.str "text")).map (fieldText · "text" ""))

/-- What the answers of MCP servers add to the reply. -/
def mcpReplies (step : PlanStep) (results : List ToolResult) :
    Except Error (List String) :=
  match step.tools.filter (Text.startsWith "mcp.") with
  | [] => .ok []
  | tool :: _ => do
      let texts ← (results.filterMap answeredFields).mapM contentText
      return (texts.filter fun text => !Text.isBlank text).map fun text =>
        "External tool response from " ++ serverOf tool ++ ":\n" ++ Text.take 32000 text

/-- What the texts of a step's own answers add to the reply. -/
def spokenReplies (step : PlanStep) (results : List ToolResult) : List String :=
  if step.tools.contains "agent.respond" then
    ((results.filterMap answeredText).map Text.strip).filter (· ≠ "")
  else []

def dateReplies (step : PlanStep) (results : List ToolResult) : List String :=
  if step.tools.contains "system.date" then results.filterMap answeredText else []

end Raphael.Agent.Orchestrator

namespace Raphael.Agent.Orchestrator

open Core Foundation
open Agent.Executor Agent.Recovery
open Raphael.Runtime Tools

/-- What the agent reads and writes of a context. -/
structure ExecutionContext where
  currentState : TaskState := .created
  plan : Option Plan := none
  observations : List String := []
  /-- `metadata["graph"]`. -/
  graph : Snapshot := []
  /-- `metadata["research_sources"]`. -/
  researchSources : List SourceNote := []
  /-- `metadata["agent_result"]["sources"]`. -/
  resultSources : List SourceNote := []

/-- Structured understanding of a user goal. -/
structure TaskSpec where
  needsResearch : Bool := false
  researchGap : String := ""

structure AgentConfig where
  workspace : String := ""
  arguments : Arguments := []
  verificationCriteria : List (String × List Json) := []
  verificationRoot : String := ""
  maxAttempts : Nat := 3
  maxReplans : Nat := 1

inductive AgentStatus
  | completed
  | failed
  | escalated
  deriving DecidableEq, Repr

structure AgentResult where
  taskId : String := ""
  status : AgentStatus := .failed
  summary : String := ""
  reply : String := ""
  stepStates : List (String × StepState) := []
  verificationStatus : VerificationStatus := .pending
  recovery : Option RecoveryOutcome := none
  memoryIds : List String := []
  evidence : List String := []
  error : String := ""

structure ResearchSource where
  title : String := ""
  origin : String := ""
  url : String := ""
  content : String := ""

structure ResearchEvidence where
  sourceId : String := ""
  claim : String := ""

/-- A research result, with the context that is built from it. -/
structure ResearchResult where
  context : String := ""
  sources : List ResearchSource := []
  evidence : List ResearchEvidence := []

structure RecalledMemory where
  id : String
  scope : String := ""
  content : String := ""

/-- `execute_graph`: it answers, and leaves a graph in the context. -/
abbrev GraphExecutor (World : Type) :=
  String → TaskGraph → Arguments → World → (Except Error ExecutionResult × Snapshot) × World

/-- A call of something outside the agent. -/
abbrev Outside (World answer : Type) := World → Except Error answer × World

/-- The agent, its configuration, and one task. -/
structure SingleAgent (World : Type) where
  taskId : String
  title : String := ""
  config : AgentConfig := {}
  registry : ToolRegistry
  isDateQuestion : String → Bool := fun _ => false
  sanitizeException : Error → String := Error.text
  /-- A reading of the token, if the caller passed one. -/
  cancelToken : Option (World → Bool × World) := none
  /-- The operator has asked for the task to be cancelled. -/
  operatorCancels : World → Bool := fun _ => false
  saveContext : ExecutionContext → Outside World Unit := fun _ world => (.ok (), world)
  selectProvider : Outside World Unit := fun world => (.ok (), world)
  requestSpec : String → Outside World TaskSpec
  formulateQuery : String → String → Outside World String :=
    fun goal _ world => (.ok goal, world)
  /-- `filesystem.list`, run on the workspace. -/
  listWorkspace : String → Outside World ToolResult := fun _ world => (.ok {}, world)
  research : Option (String → Outside World ResearchResult) := none
  retrieve : Option (String → Outside World (List RecalledMemory)) := none
  storeMemories : Outside World (List String) := fun world => (.ok [], world)
  planner : String → List String → String → Outside World Plan
  executorFactory : Option (Outside World (GraphExecutor World)) := none
  verifier : String → String → List ToolResult → List Json → String →
    Outside World VerificationResult
  recoveryPlannerFactory : Option (Outside World (RecoveryPlanner World)) := none
  recoveryExternals : RecoveryExternals
  summarizeFor : Option (String → Outside World String) := none
  /-- The provider's answer to a question and what a search has found for it. -/
  answerSearch : String → Outside World String := fun _ world => (.ok "", world)

/-- The persisted task and context, the context in memory, what has been published, and
what the executor, the verifier and the planner of replacements have been asked. -/
structure AgentState (World : Type) where
  world : World
  task : TaskState := .created
  context : ExecutionContext := {}
  saved : ExecutionContext := {}
  events : List Event := []
  trace : List Observation := []

abbrev AgentM (World : Type) := EStateM Error (AgentState World)

/-- What a run has reached when it comes to complete the task. -/
structure Reached where
  plan : Plan
  execution : ExecutionResult
  verifications : List (String × VerificationResult)
  recovery : Option RecoveryOutcome
  memoryIds : List String

/-- `_worst`'s order of the statuses. -/
def verificationOrder : VerificationStatus → Nat
  | .failed => 0
  | .error => 1
  | .inconclusive => 2
  | .passed => 3
  | .pending => 4

/-- `_worst`. -/
def worst (taskId : String) (results : List VerificationResult) : VerificationResult :=
  match results.insertionSort fun left right =>
      verificationOrder left.status ≤ verificationOrder right.status with
  | [] => { taskId, status := .inconclusive, reason := "nothing was verified" }
  | first :: _ => first

/-- The paths that `_walk_to` writes out. -/
def listedPath : TaskState → TaskState → Option (List TaskState)
  | .verifying, .executing => some [.recovering, .executing]
  | .recovering, .executing => some [.executing]
  | .executing, .verifying => some [.verifying]
  | .recovering, .verifying => some [.executing, .verifying]
  | _, _ => none

def forwardStates : List TaskState :=
  [.created, .understanding, .awareness, .planning, .waitingPermission, .executing,
    .verifying]

/-- The states to walk through from one state to another, if there is a path. -/
def walkPath (current target : TaskState) : Option (List TaskState) :=
  match listedPath current target with
  | some path => some path
  | none =>
      if forwardStates.contains current && forwardStates.contains target then
        let start := forwardStates.idxOf current
        let stop := forwardStates.idxOf target
        if stop > start then some ((forwardStates.take (stop + 1)).drop (start + 1))
        else none
      else none

namespace SingleAgent

variable {World : Type} (agent : SingleAgent World)

/-! ## The task, the context and the outside -/

/-- The operator cancels a task that is not terminal. -/
def interrupted (state : AgentState World) : AgentState World :=
  if agent.operatorCancels state.world && !isTerminal state.task then
    { state with
      task := .cancelled
      saved := { state.saved with currentState := .cancelled } }
  else state

/-- A call of the outside, on the world of a state. -/
def outside {answer : Type} (call : World → answer × World) (state : AgentState World) :
    answer × AgentState World :=
  let (answer, world) := call state.world
  (answer, agent.interrupted { state with world })

def observe {answer : Type} (call : World → answer × World) : AgentM World answer :=
  fun state =>
    let (answer, state) := agent.outside call state
    .ok answer state

/-- A call of the outside whose exceptions are raised. -/
def perform {answer : Type} (call : Outside World answer) : AgentM World answer := do
  MonadExcept.ofExcept (← agent.observe call)

/-- `transition` of the task manager, on the task and its context. -/
def transition (target : TaskState) : AgentM World Unit := do
  let state ← get
  match assertTransition state.task target with
  | .error error => throw (.other error.message)
  | .ok () => set { state with
      task := target
      saved := { state.saved with currentState := target } }

def currentState : AgentM World TaskState := do
  return (← get).task

def emit (eventType : EventType) (payload : List (String × Json)) : AgentM World Unit :=
  modify fun state => { state with
    events := state.events ++ [{ eventType, taskId := agent.taskId, payload }] }

def note (observation : String) : AgentM World Unit :=
  modify fun state => { state with
    context := { state.context with
      observations := state.context.observations ++ [observation] } }

/-- The context in memory is written as it is. -/
def save : AgentM World Unit := do
  let state ← get
  agent.perform (agent.saveContext state.context)
  modify fun after => { after with saved := state.context }

/-- `_walk_to`. -/
def walkTo (target : TaskState) : AgentM World Unit := do
  let current ← currentState
  if current = target then pure ()
  else
    match walkPath current target with
    | none => transition target
    | some path => path.forM transition

def tokenCancelled : AgentM World Bool :=
  match agent.cancelToken with
  | none => pure false
  | some token => agent.observe token

def cancellation : String := "task " ++ agent.taskId ++ " cancelled by operator"

/-- `_check_cancelled`. -/
def checkCancelled : AgentM World Unit := do
  if ← agent.tokenCancelled then throw (.cancelled agent.cancellation) else pure ()

/-! ## Up to the plan -/

/-- `_understand`. -/
def understand (goalText : String) : AgentM World TaskSpec := do
  transition .understanding
  agent.perform agent.selectProvider
  let spec ← tryCatch (agent.perform (agent.requestSpec goalText)) fun error =>
    match error with
    | .model message => throw (.other ("understanding failed: " ++ message))
    | error => throw error
  agent.save
  agent.emit .understandingCompleted [("needs_research", .bool spec.needsResearch)]
  return spec

/-- The names of `list_tools`, which sorts them. -/
def toolNames : List String :=
  (agent.registry.entries.map (·.tool.name)).insertionSort (· ≤ ·)

def hasTool (name : String) : Bool := agent.toolNames.contains name

/-- What `_aware` sees of the workspace. -/
def surveyWorkspace : AgentM World Unit := do
  if agent.config.workspace ≠ "" ∧ agent.hasTool "filesystem.list" then
    let result ← agent.perform (agent.listWorkspace agent.config.workspace)
    note (if result.success then "workspace entries: " ++ result.output.text
      else "workspace unavailable: " ++ result.error.getD "None")
  else pure ()

/-- `_aware`. -/
def aware : AgentM World Unit := do
  transition .awareness
  let tools := agent.toolNames
  note ("available tools: " ++ Text.join ", " tools)
  agent.surveyWorkspace
  agent.save
  agent.emit .awarenessCompleted [("tools", .int tools.length)]

def researchText (result : ResearchResult) : String :=
  Text.take 16000 (result.context ++ "\n" ++ Text.join "\n"
    ((result.sources.take 5).map fun source =>
      "Source snippet [" ++ source.origin ++ "] " ++ source.url ++ ": " ++
        Text.take 1200 source.content))

/-- The first sources of a research are kept in the context. -/
def noteResearch (sources : List ResearchSource) : AgentM World Unit :=
  modify fun state => { state with
    context := { state.context with
      researchSources := (sources.take 10).map fun source =>
        { title := source.title, origin := source.origin, url := source.url } } }

/-- What the research manager finds, if there is one. -/
def findings (query : String) : AgentM World String :=
  match agent.research with
  | none => do
      note "research requested but no manager configured"
      return ""
  | some research => do
      let result ← agent.perform (research query)
      noteResearch result.sources
      result.evidence.forM fun item =>
        note ("evidence [" ++ Text.take 8 item.sourceId ++ "]: " ++ item.claim)
      return researchText result

/-- `_research_phase`. -/
def researchPhase (query : String) : AgentM World String := do
  transition .researching
  let text ← agent.findings query
  agent.save
  return text

/-- `_recall`. -/
def recall_ (goalText : String) : AgentM World String :=
  match agent.retrieve with
  | none => pure ""
  | some retrieve => do
      let recalled ← agent.perform (retrieve goalText)
      let unique := recalled.eraseDupsBy fun left right => left.id == right.id
      let lines := (unique.take 8).map fun memory =>
        "recalled memory [" ++ memory.scope ++ "]: " ++ memory.content
      lines.forM note
      agent.save
      agent.emit .memoryRecalled [("count", .int lines.length)]
      pure (Text.join "\n" lines)

/-- A step that searches the web is given its query. -/
def formQuery (goalText : String) (step : PlanStep) : AgentM World PlanStep := do
  if step.tools.contains "web.search" then
    let query ← agent.perform (agent.formulateQuery goalText step.description)
    pure { step with arguments := Json.insert step.arguments "query" (.str query) }
  else pure step

def setPlan (plan : Plan) : AgentM World Unit :=
  modify fun state => { state with
    context := { state.context with plan := some plan } }

def enterPlanning : AgentM World Unit := do
  let current ← currentState
  if current = .planning then pure () else transition .planning

/-- `_plan`. -/
def plan (goalText context : String) : AgentM World Plan := do
  enterPlanning
  let proposed ← agent.perform (agent.planner goalText agent.toolNames context)
  let steps ← proposed.steps.mapM (agent.formQuery goalText)
  let plan := { proposed with steps }
  setPlan plan
  agent.save
  agent.emit .planCreated [("steps", .int plan.steps.length), ("goal", .str plan.goal)]
  return plan

/-- The query of the research, if there is a manager for it. -/
def searchQuery (goalText : String) (spec : TaskSpec) : AgentM World String :=
  if agent.research.isSome then
    agent.perform (agent.formulateQuery goalText spec.researchGap)
  else pure ""

/-- The research of a run, if the goal needs any. -/
def researchFor (goalText : String) (spec : TaskSpec) : AgentM World String := do
  let clockQuestion := agent.hasTool "system.date" && agent.isDateQuestion goalText
  if spec.needsResearch && !clockQuestion then
    let query ← agent.searchQuery goalText spec
    agent.researchPhase (if query = "" then goalText else query)
  else pure ""

/-- `_drive`, up to the plan. -/
def prepare (goalText : String) : AgentM World Plan := do
  agent.checkCancelled
  let spec ← agent.understand goalText
  agent.checkCancelled
  agent.aware
  agent.checkCancelled
  let research ← agent.researchFor goalText spec
  let recalled ← agent.recall_ goalText
  agent.plan goalText (Text.join "\n" ([recalled, research].filter (· ≠ "")))

/-! ## Execution and verification -/

/-- An action, and the observation that its answer makes. -/
def observed {answer : Type} (observation : Except Error answer → Observation)
    (action : AgentM World answer) : AgentM World answer := fun state =>
  match action state with
  | .ok answer state =>
      .ok answer { state with trace := state.trace ++ [observation (.ok answer)] }
  | .error error state =>
      .error error { state with trace := state.trace ++ [observation (.error error)] }

/-- The executor keeps the graph in the context, and saves it. -/
def persistGraph (graph : Snapshot) : AgentM World Unit :=
  modify fun state =>
    let context := { state.context with graph }
    { state with context, saved := context }

/-- The executor runs the graph of a plan. -/
def executeGraph (plan : Plan) (arguments : Arguments) :
    AgentM World ExecutionResult :=
  match agent.executorFactory with
  | none => throw (.other "no executor factory configured")
  | some factory => do
      let executor ← agent.perform factory
      let graph ← MonadExcept.ofExcept (TaskGraph.fromPlan plan)
      let (answer, snapshot) ← agent.observe (executor agent.taskId graph arguments)
      persistGraph snapshot
      MonadExcept.ofExcept answer

/-- `_execute`. -/
def execute (plan : Plan) : AgentM World ExecutionResult := do
  walkTo .executing
  observed (.executed plan) (agent.executeGraph plan agent.config.arguments)

def criteriaOf (stepId : String) : List Json :=
  ((agent.config.verificationCriteria.find? (·.1 = stepId)).map (·.2)).getD
    [.obj [("strategy", .str "command_results")]]

/-- `_verify_one`, of a step of an executed plan. -/
def verifyOne (execution : ExecutionResult) (step : PlanStep) :
    AgentM World VerificationResult :=
  agent.perform (agent.verifier agent.taskId step.id (execution.resultsOf step.id)
    (agent.criteriaOf step.id) agent.config.verificationRoot)

/-- The verifications of the steps, by step. -/
def verifySteps (execution : ExecutionResult) (steps : List PlanStep) :
    AgentM World (List (String × VerificationResult)) :=
  steps.foldlM (fun out step => do
    let verification ← agent.verifyOne execution step
    pure (Json.insert out step.id verification)) []

/-- The verification of an execution: the worst of its steps. -/
def overall (verifications : List (String × VerificationResult)) : VerificationResult :=
  worst agent.taskId (verifications.map (·.2))

/-- `_verify`. -/
def verify (plan : Plan) (execution : ExecutionResult) :
    AgentM World (List (String × VerificationResult)) := do
  walkTo .verifying
  observed (fun answer => .verified plan execution (answer.map agent.overall))
    (agent.verifySteps execution plan.steps)

/-! ## Recovery -/

/-- An action of the agent, as a callable of the recovery. -/
def asCall {answer : Type} (action : AgentM World answer) (state : AgentState World) :
    Except Error answer × AgentState World :=
  match action state with
  | .ok answer state => (.ok answer, state)
  | .error error state => (.error error, state)

/-- A planner of replacements, on the world of a state. -/
def overState (planner : RecoveryPlanner World) : RecoveryPlanner (AgentState World) where
  registry := planner.registry
  risk := planner.risk
  policy := planner.policy
  replanProvider := planner.replanProvider.map fun provider taskId plan reason =>
    agent.outside (provider taskId plan reason)
  agentId := planner.agentId

/-- The callables that the recovery is given. -/
def recoveryCalls : RecoveryCalls (AgentState World) where
  executeFn plan arguments :=
    asCall (agent.executeGraph plan
      (if arguments.isEmpty then agent.config.arguments else arguments))
  verifyFn taskId plan result := asCall (do
    let merged ← plan.steps.mapM (agent.verifyOne result)
    pure (worst taskId merged))

/-- The engine's call. -/
def recoveryRun (planner : Option (RecoveryPlanner World)) :
    RecoveryRun (AgentState World) where
  externals := agent.recoveryExternals
  engine := {
    policy := {
      retries := { maxAttempts := agent.config.maxAttempts }
      maxReplans := agent.config.maxReplans }
    planner := planner.map agent.overState }
  calls := agent.recoveryCalls
  taskId := agent.taskId
  arguments := agent.config.arguments
  maxAttempts := agent.config.maxAttempts

/-- What a recovery has published and observed comes behind what was there. -/
def joined (loop : RecoveryLoop (AgentState World)) : AgentState World :=
  { loop.world with
    events := loop.world.events ++ loop.events
    trace := loop.world.trace ++ loop.trace }

/-- `run_with_prior`, on the execution and its verification. -/
def recover (planner : Option (RecoveryPlanner World)) (plan : Plan)
    (execution : ExecutionResult) (verification : VerificationResult) :
    AgentM World RecoveryOutcome := fun state =>
  let (answer, loop) :=
    (agent.recoveryRun planner).conclude plan (some execution) (some verification) state
  match answer with
  | .ok outcome => .ok outcome (joined loop)
  | .error error => .error error (joined loop)

def recoveryPlanner : AgentM World (Option (RecoveryPlanner World)) :=
  match agent.recoveryPlannerFactory with
  | none => pure none
  | some factory => do return some (← agent.perform factory)

/-- The execution is complete, and every verification passed. -/
def allPassed (execution : ExecutionResult)
    (verifications : List (String × VerificationResult)) : Bool :=
  execution.status == .completed && verifications.all (·.2.status == .passed)

/-- `_recover_if_needed`. -/
def recoverIfNeeded (plan : Plan) (execution : ExecutionResult)
    (verifications : List (String × VerificationResult)) :
    AgentM World (Option RecoveryOutcome) := do
  if allPassed execution verifications then pure none
  else do
    transition .recovering
    agent.emit .recoveryStarted []
    let planner ← agent.recoveryPlanner
    let outcome ← agent.recover planner plan execution (agent.overall verifications)
    transition .executing
    transition .verifying
    pure (some outcome)

/-- `_reverify`. -/
def reverify (recovery : RecoveryOutcome) : List (String × VerificationResult) :=
  match recovery.finalVerification with
  | some verification => [("all", verification)]
  | none => []

/-- From the plan to the completion. -/
def pursue (plan : Plan) : AgentM World Reached := do
  let execution ← agent.execute plan
  agent.checkCancelled
  let verifications ← agent.verify plan execution
  let recovery ← agent.recoverIfNeeded plan execution verifications
  let memoryIds ← agent.perform agent.storeMemories
  return {
    plan, execution, recovery, memoryIds
    verifications := recovery.elim verifications reverify }

/-! ## Endings -/

/-- `_cancelled`. -/
def cancelled (error : String) : AgentM World AgentResult := do
  let current ← currentState
  -- Every state that is not terminal may be cancelled, so that this does not raise.
  if isTerminal current then pure () else transition .cancelled
  agent.save
  return {
    taskId := agent.taskId
    summary := "Cancelled by the operator before completion."
    error }

/-- `_fail`. -/
def fail (error : String) : AgentM World AgentResult := do
  let current ← currentState
  if isTerminal current then pure () else transition .failed
  agent.emit .taskFailed [("error", .str error)]
  agent.save
  return { taskId := agent.taskId, error }

/-- The tool results that say why they failed. -/
def toolErrors (execution : ExecutionResult) : List ToolResult :=
  execution.allToolResults.filter fun result =>
    !result.success && !Text.isBlank (result.error.getD "")

/-- The lines of `_summarize`. -/
def summaryLines (execution : ExecutionResult) (verification : VerificationResult)
    (recovery : Option RecoveryOutcome) : List String :=
  ["Task '" ++ agent.title ++ "' ended " ++ execution.status.value ++ "; verification " ++
      verification.status.value ++ ".",
    "Steps succeeded: " ++ toString execution.succeeded.length ++ "/" ++
      toString execution.states.length ++ "."] ++
  (recovery.elim [] fun outcome =>
    ["Recovery: " ++ outcome.status.value ++ " (" ++ Text.join ", "
      (outcome.audit.map fun record =>
        record.action.value ++ "#" ++ toString record.attempt) ++ ")."]) ++
  (if verification.reason = "" then []
    else ["Verification note: " ++ verification.reason]) ++
  (if (toolErrors execution).isEmpty then []
    else ["Tool errors: " ++ Text.join "; "
      (((toolErrors execution).take 3).map fun result =>
        (if result.toolCallId = "" then "tool" else result.toolCallId) ++ ": " ++
          result.error.getD "None")])

/-- `_summarize`. -/
def summarize (execution : ExecutionResult) (verification : VerificationResult)
    (recovery : Option RecoveryOutcome) : AgentM World String :=
  let detail := Text.join "\n" (agent.summaryLines execution verification recovery)
  match agent.summarizeFor with
  | none => pure detail
  | some summarizeFor => agent.perform (summarizeFor detail)

/-- The status a run ends with, the state of its task, and the event of it. -/
def conclusion (reached : Reached) (verification : VerificationResult) :
    AgentStatus × TaskState × EventType × List (String × Json) :=
  let recoveredAs (status : OutcomeStatus) : Bool :=
    reached.recovery.any (·.status == status)
  if reached.execution.status = .completed ∧ verification.status = .passed then
    (.completed, .completed, .taskCompleted, [])
  else if recoveredAs .recovered then
    (.completed, .completed, .taskCompleted, [("recovered", .bool true)])
  else if recoveredAs .escalated then
    (.escalated, .failed, .taskFailed, [("escalated", .bool true)])
  else (.failed, .failed, .taskFailed, [])

/-- Why a run has failed. -/
def failure (execution : ExecutionResult) (verification : VerificationResult) : String :=
  let errors := execution.allToolResults.filterMap fun result =>
    if result.success then none else result.error.filter (· ≠ "")
  if errors.isEmpty then verification.reason else Text.join "; " (errors.take 3)

/-- The provider's answer from the sources of a search, whose exceptions are caught. -/
def searchReply (goal : String) (sources : List Json) : AgentM World String := do
  let answer ← tryCatch (do
      let text ← agent.perform (agent.answerSearch ("User question: " ++ goal ++
        "\n\nUntrusted search snippets:\n" ++ searchDigest sources))
      return Text.strip text) fun _ =>
    pure "I found sources but could not form a reliable answer from them."
  return answer ++ "\n\nSources:\n" ++ searchLinks sources

/-- What the searches of a step add to the reply. -/
def searchReplies (goal : String) (step : PlanStep) (results : List ToolResult) :
    AgentM World (List String) :=
  if step.tools.contains "web.search" then
    (searchResults results).mapM (agent.searchReply goal)
  else pure []

/-- What one step adds to the reply. -/
def stepReply (plan : Plan) (execution : ExecutionResult) (step : PlanStep) :
    AgentM World (List String) := do
  let results := execution.resultsOf step.id
  let found ← agent.searchReplies plan.goal step results
  let external ← MonadExcept.ofExcept (mcpReplies step results)
  return dateReplies step results ++ found ++ external ++ spokenReplies step results

/-- `_collect_reply`. -/
def collectReply (plan : Plan) (execution : ExecutionResult) : AgentM World String := do
  let parts ← plan.steps.mapM (agent.stepReply plan execution)
  return Text.join "\n\n" parts.flatten

/-- The sources of the result are kept in the context: those that the tools name, or
else those of the research. -/
def noteSources (named : List (List (String × Json))) : AgentM World Unit :=
  modify fun state => { state with
    context := { state.context with
      resultSources :=
        if named.isEmpty then state.context.researchSources.map fun source =>
          { title := Text.take 500 source.title
            origin := Text.take 200 source.origin
            url := Text.take 2000 source.url }
        else named.map SourceNote.ofFields } }

/-- What is reported once the task has ended. -/
def report (reached : Reached) (verification : VerificationResult) (status : AgentStatus) :
    AgentM World AgentResult := do
  let summary ← agent.summarize reached.execution verification reached.recovery
  let sources ← MonadExcept.ofExcept (namedSources reached.execution)
  let reply ← agent.collectReply reached.plan reached.execution
  noteSources sources
  let state ← get
  agent.save
  return {
    taskId := agent.taskId
    status, summary, reply
    stepStates := reached.execution.states
    verificationStatus := verification.status
    recovery := reached.recovery
    memoryIds := reached.memoryIds
    evidence := state.context.observations.filter (Text.startsWith "evidence ")
    error := if status = .completed then ""
      else failure reached.execution verification }

/-- `_complete`. -/
def complete (reached : Reached) : AgentM World AgentResult := do
  let current ← currentState
  if current = .cancelled then agent.cancelled "cancelled by operator"
  else do
    let verification := agent.overall reached.verifications
    let (status, target, eventType, payload) := conclusion reached verification
    transition target
    agent.emit eventType payload
    agent.report reached verification status

/-! ## Runs -/

/-- The handlers of `_drive`. -/
def handle (error : Error) : AgentM World AgentResult :=
  match error with
  | .cancelled message => agent.cancelled message
  | error => do
      if ← agent.tokenCancelled then agent.cancelled agent.cancellation
      else agent.fail (agent.sanitizeException error)

/-- `run_task`, and `run_goal` on the task it creates. -/
def runTask (goalText : String) : AgentM World AgentResult :=
  tryCatch (do
    let plan ← agent.prepare goalText
    let reached ← agent.pursue plan
    agent.complete reached) agent.handle

/-- Resuming takes no token. -/
def withoutToken : SingleAgent World := { agent with cancelToken := none }

def noPlan : Error :=
  .other ("task " ++ Text.repr agent.taskId ++ " has no resumable plan")

/-- `resume`. -/
def resume : AgentM World AgentResult := do
  match (← get).context.plan with
  | none => throw agent.noPlan
  | some plan =>
      tryCatch (do
        walkTo .executing
        let reached ← agent.withoutToken.pursue plan
        agent.complete reached) fun error => agent.fail (agent.sanitizeException error)

end SingleAgent

end Raphael.Agent.Orchestrator
