import Raphael.Agent.Executor.QuietExecution
import Raphael.Agent.Executor.ToolExecution
import Raphael.Foundation.FlakyService
import Raphael.Tools.LedgerSettling

/-! # Executions over tools that fail for a while

To an execution, the tools behind a runner are a service that fails for a while. A ledger
makes it one that accepts each action once only, whether the action succeeds or not. -/

namespace Raphael.Agent.Executor

open Core Foundation
open Agent.Planner
open Security
open Tools

namespace ToolExecutor

variable (tools : ToolExecutor)

/-! ## What is taken of the tools and the schedule -/

/-- A step's call of a tool, but for its id. -/
def plannedCall (arguments : Arguments) (step : PlanStep) (tool : String) : ToolCall where
  id := ""
  taskId := tools.taskId
  tool := tool
  arguments := Json.merge step.arguments
    ((((stepArguments arguments).find? (·.1 = step.id)).map (·.2)).getD [])

/-- What a step asks of one of its tools: the tool, and the digest of the action. -/
def action (contract : String → Tool) (arguments : Arguments) (step : PlanStep)
    (tool : String) : ServiceRequest String String where
  kind := tool
  key := ToolRunner.identityOf tools.externals (contract tool)
    (tools.plannedCall arguments step tool)

def actions (contract : String → Tool) (arguments : Arguments) (steps : List PlanStep) :
    List (ServiceRequest String String) :=
  steps.flatMap fun step => step.tools.map (tools.action contract arguments step)

/-- The text of a tool result does not read as a denial. -/
def Undenied (lower : String → String) (result : ToolResult) : Prop :=
  Text.contains "denied" (lower (result.error.getD "")) = false

/-- The calls of the graph pass the gates of the runner. Each tool fails a number of times,
and then succeeds; its failures do not read as denials. -/
structure Flaky (lower : String → String) (contract : String → Tool)
    (failures : String → Nat) (arguments : Arguments) (graph : TaskGraph) : Prop where
  registered : ∀ invoked, ∀ step ∈ graph.steps, ∀ tool ∈ step.tools,
    (tools.runner invoked).registry.get tool = some (contract tool)
  granted : ∀ (before current : SharedTools), ∀ step ∈ graph.steps, ∀ position tool,
    step.tools[position]? = some tool →
    let attempt := tools.schedule before
    let call := (tools.unanswered arguments graph attempt).callAt step position tool
    ∃ screened permission permitted,
      ToolRunner.screen tools.externals (attempt.surroundings (step.id, position))
        (tools.runner current.invoked) (opening call current) =
          .ok (contract tool, screened) ∧
      ToolRunner.permit tools.externals (attempt.surroundings (step.id, position))
        (tools.runner current.invoked) (contract tool) screened =
          .ok (permission, permitted)
  profiled : ∀ invoked, ∀ step ∈ graph.steps, ∀ tool ∈ step.tools,
    (contract tool).requiresSandbox = true →
      (tools.runner invoked).hasProfile (contract tool) = true
  fails : ∀ invoked, ∀ step ∈ graph.steps, ∀ tool ∈ step.tools, ∀ handler,
    (tools.runner invoked).registry.handler tool = some handler →
    ∀ identity crash (state : RunState), state.call.tool = tool →
    ∃ result,
      (ToolRunner.finish tools.externals (contract tool) identity crash state
        ((if (contract tool).requiresSandbox then
            (tools.runner invoked).sandbox (contract tool) handler
          else handler)
          (tools.plannedCall arguments step tool).arguments)).1 = .ok result ∧
      (result.success = true ↔ failures tool ≤ invoked tool) ∧ Undenied lower result

/-- An execution that nothing disturbs comes to its end: the runner takes exactly the calls
that are made, and their ids are new. -/
structure Scheduled (arguments : Arguments) (graph : TaskGraph) (shared : SharedTools) :
    Prop where
  quiet : (tools.answered arguments graph shared).1.Quiet
  ends : ∃ loop,
    (tools.answered arguments graph shared).1.after Execution.freshNodes
      (tools.schedule shared).turns = .ok loop ∧
    (tools.answered arguments graph shared).1.finished loop = true ∧
    (tools.schedule shared).order.Perm
      ((tools.answered arguments graph shared).1.madeCalls loop)
  fresh : ∀ place ∈ (tools.schedule shared).order,
    (tools.schedule shared).world.callId place.1 place.2 ∉ shared.seenIds
  distinct : ((tools.schedule shared).order.map fun place =>
    (tools.schedule shared).world.callId place.1 place.2).Nodup

/-! ## The tools as a flaky service -/

/-- The digests that have a row. -/
def rowsOf (ledger : ExecutionLedger) : Set String := {digest | ledger digest ≠ none}

/-- The service that the tools are: with a ledger, it turns away a digest with a row. -/
def stock (shared : SharedTools) : FlakyService String String where
  served := shared.invoked
  spent := shared.ledger.map rowsOf

variable {tools} {lower : String → String} {contract : String → Tool}
  {failures : String → Nat} {arguments : Arguments} {graph : TaskGraph}
  {before shared : SharedTools} {step : PlanStep} {position : Nat} {tool : String}

theorem refuses_stock {digest : String} :
    (stock shared).Refuses digest ↔
      ∃ record, shared.ledger.bind (·.get digest) = some record := by
  cases held : shared.ledger with
  | none => simp [stock, FlakyService.Refuses, held]
  | some rows =>
      simp [stock, FlakyService.Refuses, held, rowsOf, ExecutionLedger.get,
        Option.ne_none_iff_exists, eq_comm]

theorem rowsOf_transition (ledger : ExecutionLedger) (digest : String)
    (state : ExecutionState) (resultHash : String) :
    rowsOf (ledger.transition digest state resultHash) = rowsOf ledger := by
  ext other
  by_cases same : other = digest
  · subst same
    simp [rowsOf, ExecutionLedger.transition, ExecutionLedger.update]
  · simp [rowsOf, ExecutionLedger.transition_of_ne same]

theorem rowsOf_begin {ledger : ExecutionLedger} {digest : String}
    (absent : ledger digest = none) (taskId semantic : String) :
    rowsOf (ledger.begin digest taskId semantic) = insert digest (rowsOf ledger) := by
  ext other
  rw [ExecutionLedger.begin_of_absent absent]
  by_cases same : other = digest
  · subst same
    simp [rowsOf]
  · simp [rowsOf, same]

theorem rowsOf_finish (contract : Tool) (identity crash : String) (state : RunState)
    (outcome : HandlerOutcome) :
    (ToolRunner.finish tools.externals contract identity crash state outcome).2.ledger.map
      rowsOf = state.ledger.map rowsOf := by
  rcases @ToolRunner.finish_ledger tools.externals state contract identity crash outcome with
    ⟨_, _, _, _, _, resultHash, written⟩ | ⟨_, _, _, kept⟩
  · rw [written, Option.map_map]
    exact congrArg (fun change => state.ledger.map change)
      (funext fun ledger => rowsOf_transition ledger identity _ resultHash)
  · rw [kept]

/-! ## One call -/

/-- What a call comes to, in terms of the service. -/
structure Called (lower : String → String) (failures : String → Nat)
    (request : ServiceRequest String String) (id : String) (shared : SharedTools)
    (reply : ToolReply) (left : SharedTools) : Prop where
  returned : ∃ result, reply = .returned result ∧
    (result.success = true ↔ (stock shared).Answers failures request) ∧
    (shared.ledger = none → Undenied lower result)
  serves : stock left = (stock shared).after request
  seen : left.seenIds ⊆ id :: shared.seenIds

/-- The call and the state in which the gates leave it. -/
structure Waits (call : ToolCall) (shared : SharedTools) (state : RunState) : Prop
    extends ToolRunner.SameReservation (opening call shared) state where
  idle : state.invocations = []

variable {call : ToolCall} {state : RunState}

/-- A call that finds a row is turned away. -/
theorem called_of_row (waits : Waits call shared state) {record : ExecutionRecord}
    (row : state.ledger.bind (·.get (ToolRunner.identityOf tools.externals (contract tool)
      call)) = some record) (result : ToolResult) (failed : result.success = false)
    {left : RunState} (ledger : left.ledger = state.ledger) (seen : left.seenIds = state.seenIds)
    (idle : left.invocations = []) :
    Called lower failures
      ⟨tool, ToolRunner.identityOf tools.externals (contract tool) call⟩ call.id shared
      (.returned result) (leaving shared left) := by
  have held : state.ledger = shared.ledger := waits.ledger
  rw [held] at row
  have refuses : (stock shared).Refuses
      (ToolRunner.identityOf tools.externals (contract tool) call) :=
    refuses_stock.mpr ⟨record, row⟩
  refine ⟨⟨result, rfl, ?_, fun keyless => ?_⟩, ?_, ?_⟩
  · rw [failed]
    exact iff_of_false Bool.false_ne_true fun answers => answers.1 refuses
  · rw [keyless] at row
    cases row
  · rw [FlakyService.after_of_refuses refuses]
    simp only [stock, leaving, ledger, held, idle, List.countP_nil, Nat.add_zero]
  · rw [show (leaving shared left).seenIds = shared.seenIds from seen.trans waits.seenIds]
    exact List.subset_cons_self _ _

/-- A call that finds no row invokes its handler. -/
theorem called_of_absent (waits : Waits call shared state)
    (named : (contract call.tool).name = call.tool)
    (absent : state.ledger.bind (·.get (ToolRunner.identityOf tools.externals
      (contract call.tool) call)) = none)
    {result : ToolResult} (succeeds : result.success = true ↔
      failures call.tool ≤ shared.invoked call.tool) (undenied : Undenied lower result)
    {left : RunState}
    (rows : left.ledger.map rowsOf = (state.ledger.map
      (ToolRunner.begun tools.externals (contract call.tool) call)).map rowsOf)
    (seen : left.seenIds = call.id :: state.seenIds)
    (invoked : ∃ invocation : Invocation, left.invocations = [invocation] ∧
      invocation.tool = contract call.tool) :
    Called lower failures
      ⟨call.tool, ToolRunner.identityOf tools.externals (contract call.tool) call⟩ call.id
      shared (.returned result) (leaving shared left) := by
  have held : state.ledger = shared.ledger := waits.ledger
  have accepts : ¬(stock shared).Refuses
      (ToolRunner.identityOf tools.externals (contract call.tool) call) := by
    intro refuses
    rcases refuses_stock.mp refuses with ⟨record, row⟩
    rw [held, row] at absent
    cases absent
  refine ⟨⟨result, rfl, ?_, fun _ => undenied⟩, ?_, ?_⟩
  · rw [succeeds]
    exact ⟨fun enough => ⟨accepts, enough⟩, fun answers => answers.2⟩
  · rw [FlakyService.after_of_not_refuses accepts]
    have served : (leaving shared left).invoked =
        Function.update shared.invoked call.tool (shared.invoked call.tool + 1) := by
      rcases invoked with ⟨invocation, single, tool⟩
      funext name
      by_cases same : name = call.tool
      · subst same
        simp [leaving, single, tool, named]
      · simp [leaving, single, tool, named, Function.update_of_ne same, Ne.symm same]
    have spent : (leaving shared left).ledger.map rowsOf = (shared.ledger.map rowsOf).map
        (insert (ToolRunner.identityOf tools.externals (contract call.tool) call)) := by
      refine rows.trans ?_
      rw [held] at absent ⊢
      cases present : shared.ledger with
      | none => rfl
      | some ledger =>
          rw [present] at absent
          exact congrArg some (rowsOf_begin (show ledger _ = none from absent) call.taskId
            (ToolRunner.semanticTool (contract call.tool) call))
    exact congrArg₂ FlakyService.mk served spent
  · rw [show (leaving shared left).seenIds = call.id :: shared.seenIds from
      seen.trans (congrArg _ waits.seenIds)]
    exact List.Subset.refl _

theorem Waits.begun_eq (waits : Waits call shared state) (contract : Tool) :
    ToolRunner.begun tools.externals contract state.call =
      ToolRunner.begun tools.externals contract call := by
  have identity : ToolRunner.identityOf tools.externals contract state.call =
      ToolRunner.identityOf tools.externals contract call := waits.identity contract
  have taskId : state.call.taskId = call.taskId := waits.taskId
  have semantic : ToolRunner.semanticTool contract state.call =
      ToolRunner.semanticTool contract call :=
    congrArg (fun name => if contract.actionIdentity == "" then name
      else contract.actionIdentity) waits.tool
  funext ledger
  unfold ToolRunner.begun
  rw [identity, taskId, semantic]

/-- A call that passes the gates is one request to the service. -/
theorem called_of_gates {surroundings : Surroundings} {screened permitted : RunState}
    {permission : Permission}
    (registered : (tools.runner shared.invoked).registry.get call.tool =
      some (contract call.tool))
    (screening : ToolRunner.screen tools.externals surroundings
      (tools.runner shared.invoked) (opening call shared) = .ok (contract call.tool, screened))
    (permitting : ToolRunner.permit tools.externals surroundings
      (tools.runner shared.invoked) (contract call.tool) screened =
        .ok (permission, permitted))
    (profiled : (contract call.tool).requiresSandbox = true →
      (tools.runner shared.invoked).hasProfile (contract call.tool) = true)
    (fails : ∀ handler, (tools.runner shared.invoked).registry.handler call.tool =
        some handler →
      ∀ identity crash (state : RunState), state.call.tool = call.tool →
      ∃ result,
        (ToolRunner.finish tools.externals (contract call.tool) identity crash state
          ((if (contract call.tool).requiresSandbox then
              (tools.runner shared.invoked).sandbox (contract call.tool) handler
            else handler)
            call.arguments)).1 = .ok result ∧
        (result.success = true ↔ failures call.tool ≤ shared.invoked call.tool) ∧
        Undenied lower result)
    (new : call.id ∉ shared.seenIds) :
    Called lower failures
      ⟨call.tool, ToolRunner.identityOf tools.externals (contract call.tool) call⟩ call.id
      shared (tools.callTool surroundings call shared).1
      (tools.callTool surroundings call shared).2 := by
  rcases ToolRunner.screen_ok screening with ⟨holds, rfl⟩
  rcases ToolRunner.permit_ok holds.behind permitting with ⟨_, _, _, invocations, _⟩
  have screenedSame := @ToolRunner.screenReadings_reservation tools.externals surroundings
    (fun _ => tools.runner shared.invoked) _ _ _ screening
  have waits : Waits call shared permitted := {
    screenedSame.1.trans (ToolRunner.permit_reservation permitting) with
    idle := invocations }
  have identity : ToolRunner.identityOf tools.externals (contract call.tool) permitted.call =
      ToolRunner.identityOf tools.externals (contract call.tool) call :=
    waits.identity (contract call.tool)
  have sameTool : permitted.call.tool = call.tool := waits.tool
  have sameArguments : permitted.call.arguments = call.arguments := waits.arguments
  have sameId : permitted.call.id = call.id := waits.id
  have sameSeen : permitted.seenIds = shared.seenIds := waits.seenIds
  unfold callTool
  simp only [registered]
  cases row : permitted.ledger.bind
      (·.get (ToolRunner.identityOf tools.externals (contract call.tool) call)) with
  | some record =>
      rw [ToolRunner.run_of_denied screening permitting
        (ToolRunner.reserve_eq_deny (identity ▸ row))]
      exact called_of_row waits row _ rfl rfl rfl waits.idle
  | none =>
      have unseen : permitted.seenIds.contains permitted.call.id = false := by
        rw [sameSeen, sameId]
        simpa using new
      rw [ToolRunner.run_of_reserved screening permitting
        (ToolRunner.reserve_of_new (identity ▸ row) unseen)]
      rcases Option.isSome_iff_exists.mp (ToolRegistry.handler_isSome_of_get registered) with
        ⟨handler, found⟩
      rcases @ToolRunner.execute_eq_finish tools.externals surroundings { permitted with
          ledger := permitted.ledger.map
            (ToolRunner.begun tools.externals (contract call.tool) permitted.call)
          seenIds := permitted.call.id :: permitted.seenIds } (contract call.tool) permission
        (tools.runner shared.invoked) handler (sameTool ▸ found) profiled
        (ToolRunner.identityOf tools.externals (contract call.tool) permitted.call) with
        ⟨started, crash, same, invoked, executed⟩
      rw [sameArguments] at executed invoked
      rcases fails handler found
        (ToolRunner.identityOf tools.externals (contract call.tool) permitted.call) crash
        started (same.tool.trans sameTool) with ⟨result, returns, succeeds, undenied⟩
      rw [executed, returns]
      apply called_of_absent waits (ToolRegistry.get_name registered) row succeeds undenied
      · rw [rowsOf_finish, same.ledger, waits.begun_eq]
      · rw [ToolRunner.finish_seenIds, same.seenIds]
        exact congrArg (· :: permitted.seenIds) sameId
      · refine ⟨⟨contract call.tool, call.arguments, permission⟩, ?_, rfl⟩
        rw [(ToolRunner.finish_keeps _ _ _).1, invoked, waits.idle]
        rfl

/-- One call of the tools is one request to the service. -/
theorem callTool_called (flaky : tools.Flaky lower contract failures arguments graph)
    (listed : step ∈ graph.steps) (named : step.tools[position]? = some tool)
    (before shared : SharedTools)
    (new : (tools.schedule before).world.callId step.id position ∉ shared.seenIds) :
    Called lower failures (tools.action contract arguments step tool)
      ((tools.schedule before).world.callId step.id position) shared
      (tools.callTool ((tools.schedule before).surroundings (step.id, position))
        ((tools.unanswered arguments graph (tools.schedule before)).callAt step position tool)
        shared).1
      (tools.callTool ((tools.schedule before).surroundings (step.id, position))
        ((tools.unanswered arguments graph (tools.schedule before)).callAt step position tool)
        shared).2 := by
  have used : tool ∈ step.tools := List.mem_of_getElem? named
  rcases flaky.granted before shared step listed position tool named with
    ⟨screened, permission, permitted, screening, permitting⟩
  exact called_of_gates (flaky.registered shared.invoked step listed tool used) screening
    permitting (flaky.profiled shared.invoked step listed tool used)
    (flaky.fails shared.invoked step listed tool used) new

/-! ## The calls of an execution -/

theorem toolAt_eq_some {run : Execution} (listed : step ∈ run.graph.steps)
    (named : step.tools[position]? = some tool) :
    run.toolAt (step.id, position) = some (step, tool) := by
  have found : run.graph.steps.find? (·.id = step.id) = some step := by
    cases found : run.graph.steps.find? (·.id = step.id) with
    | none =>
        have apart := List.find?_eq_none.mp found step listed
        simp at apart
    | some other =>
        have same : other.id = step.id := by simpa using List.find?_some found
        rw [TaskGraph.step_unique (List.mem_of_find?_eq_some found) listed same]
  simp only [Execution.toolAt, found, Option.bind_some, named, Option.map_some]

theorem mem_of_toolAt {run : Execution} {place : Place}
    (found : run.toolAt place = some (step, tool)) :
    step ∈ run.graph.steps ∧ step.id = place.1 ∧ step.tools[place.2]? = some tool := by
  unfold Execution.toolAt at found
  rcases Option.bind_eq_some_iff.mp found with ⟨other, isStep, mapped⟩
  rcases Option.map_eq_some_iff.mp mapped with ⟨name, named, same⟩
  cases same
  exact ⟨List.mem_of_find?_eq_some isStep, by simpa using List.find?_some isStep, named⟩

/-- The request that is made at a place. -/
def requestAt (tools : ToolExecutor) (contract : String → Tool) (arguments : Arguments)
    (run : Execution) (place : Place) : Option (ServiceRequest String String) :=
  (run.toolAt place).map fun found => tools.action contract arguments found.1 found.2

/-- What the calls at some places come to, in terms of the service. -/
structure ServedAs (lower : String → String) (failures : String → Nat)
    (requests : List (ServiceRequest String String)) (places : List Place)
    (shared : SharedTools) (replies : List (Place × ToolReply)) (left : SharedTools) :
    Prop where
  places : replies.map (·.1) = places
  returned : ∀ entry ∈ replies, ∃ result, entry.2 = .returned result ∧
    (shared.ledger = none → Undenied lower result)
  serves : stock left = (stock shared).serve requests
  answered : (∀ entry ∈ replies, ∀ result, entry.2 = .returned result →
    result.success = true) ↔ (stock shared).AllAnswered failures requests

theorem ledger_eq_none_iff : shared.ledger = none ↔ (stock shared).spent.isSome = false := by
  simp [stock]

/-- A call in front of others. -/
theorem ServedAs.cons {place : Place} {rest : List Place} {id : String}
    {request : ServiceRequest String String} {requests : List (ServiceRequest String String)}
    {reply : ToolReply} {replies : List (Place × ToolReply)} {left last : SharedTools}
    (called : Called lower failures request id shared reply left)
    (later : ServedAs lower failures requests rest left replies last) :
    ServedAs lower failures (request :: requests) (place :: rest) shared
      ((place, reply) :: replies) last := by
  rcases called.returned with ⟨result, rfl, succeeds, undenied⟩
  have keyless : shared.ledger = none → left.ledger = none := by
    rw [ledger_eq_none_iff, ledger_eq_none_iff, called.serves, FlakyService.isSome_spent_after]
    exact fun none => none
  constructor
  · exact congrArg _ later.places
  · intro entry member
    rcases List.mem_cons.mp member with rfl | member
    · exact ⟨result, rfl, undenied⟩
    · rcases later.returned entry member with ⟨other, returned, undenied⟩
      exact ⟨other, returned, fun none => undenied (keyless none)⟩
  · rw [later.serves, called.serves, FlakyService.serve_cons]
  · rw [FlakyService.AllAnswered, ← succeeds, ← called.serves, ← later.answered]
    constructor
    · intro all
      exact ⟨all _ List.mem_cons_self _ rfl,
        fun entry member => all entry (List.mem_cons_of_mem _ member)⟩
    · rintro ⟨first, others⟩ entry member other returned
      rcases List.mem_cons.mp member with rfl | member
      · cases returned
        exact first
      · exact others entry member other returned

theorem serve_servedAs (flaky : tools.Flaky lower contract failures arguments graph)
    (before : SharedTools) {places : List Place} (shared : SharedTools)
    (new : ∀ place ∈ places,
      (tools.schedule before).world.callId place.1 place.2 ∉ shared.seenIds)
    (distinct : (places.map fun place =>
      (tools.schedule before).world.callId place.1 place.2).Nodup) :
    ServedAs lower failures
      (places.filterMap (requestAt tools contract arguments
        (tools.unanswered arguments graph (tools.schedule before))))
      (places.filter fun place =>
        ((tools.unanswered arguments graph (tools.schedule before)).toolAt place).isSome)
      shared
      (tools.serve (tools.unanswered arguments graph (tools.schedule before))
        (tools.schedule before) places shared).1
      (tools.serve (tools.unanswered arguments graph (tools.schedule before))
        (tools.schedule before) places shared).2 := by
  induction places generalizing shared with
  | nil => exact ⟨rfl, nofun, rfl, iff_of_true nofun trivial⟩
  | cons place rest induction =>
      rw [List.map_cons, List.nodup_cons] at distinct
      have newRest : ∀ other ∈ rest,
          (tools.schedule before).world.callId other.1 other.2 ∉ shared.seenIds :=
        fun other member => new other (List.mem_cons_of_mem _ member)
      cases found : (tools.unanswered arguments graph (tools.schedule before)).toolAt place with
      | none =>
          have skipped : requestAt tools contract arguments
              (tools.unanswered arguments graph (tools.schedule before)) place = none := by
            simp only [requestAt, found, Option.map_none]
          simp only [serve, found]
          rw [List.filterMap_cons_none skipped, List.filter_cons_of_neg (by simp [found])]
          exact induction shared newRest distinct.2
      | some called =>
          rcases called with ⟨step, tool⟩
          rcases mem_of_toolAt found with ⟨listed, same, named⟩
          rcases place with ⟨id, position⟩
          obtain rfl : step.id = id := same
          have called := callTool_called flaky listed named before shared
            (new _ List.mem_cons_self)
          have requested : requestAt tools contract arguments
              (tools.unanswered arguments graph (tools.schedule before)) (step.id, position) =
                some (tools.action contract arguments step tool) := by
            simp only [requestAt, found, Option.map_some]
          simp only [serve, found]
          rw [List.filterMap_cons_some requested, List.filter_cons_of_pos (by simp [found])]
          generalize tools.callTool ((tools.schedule before).surroundings (step.id, position))
            ((tools.unanswered arguments graph (tools.schedule before)).callAt step position
              tool) shared = behind at *
          rcases behind with ⟨reply, left⟩
          apply ServedAs.cons called
          apply induction left _ distinct.2
          intro other member seen
          rcases List.mem_cons.mp (called.seen seen) with same | seen
          · exact distinct.1 (same ▸ List.mem_map.mpr ⟨other, member, rfl⟩)
          · exact newRest other member seen

/-! ## An execution -/

/-- The tool result at a place, where the reply is one. -/
def resultAt (replies : List (Place × ToolReply)) (id : String) (position : Nat) : ToolResult :=
  match (replies.find? (·.1 = (id, position))).map Prod.snd with
  | some (.returned result) => result
  | _ => {}

theorem answered_of_returned {run : Execution} {replies : List (Place × ToolReply)}
    (returned : ∀ entry ∈ replies, ∃ result, entry.2 = .returned result) :
    (run.withReplies replies).Answered (resultAt replies) := by
  intro id position
  change ((replies.find? (·.1 = (id, position))).map (·.2)).getD (.returned {}) = _
  unfold resultAt
  cases found : replies.find? (·.1 = (id, position)) with
  | none => rfl
  | some entry =>
      rcases returned entry (List.mem_of_find?_eq_some found) with ⟨result, isResult⟩
      simp [isResult]

/-- The result at a place where there is a reply. -/
theorem mem_replies_of_mem {replies : List (Place × ToolReply)} {place : Place}
    (returned : ∀ entry ∈ replies, ∃ result, entry.2 = .returned result)
    (member : place ∈ replies.map (·.1)) :
    (place, .returned (resultAt replies place.1 place.2)) ∈ replies := by
  unfold resultAt
  cases found : replies.find? (·.1 = (place.1, place.2)) with
  | none =>
      rcases List.mem_map.mp member with ⟨entry, inside, same⟩
      have apart := List.find?_eq_none.mp found entry inside
      simp [same] at apart
  | some entry =>
      have inside := List.mem_of_find?_eq_some found
      have same : entry.1 = place := by simpa using List.find?_some found
      rcases returned entry inside with ⟨result, isResult⟩
      rcases entry with ⟨other, reply⟩
      obtain rfl : other = place := same
      obtain rfl : reply = .returned result := isResult
      simpa using inside

/-- Every place of the plan's tools. -/
def places (graph : TaskGraph) : List Place :=
  graph.steps.flatMap fun step => (List.range step.tools.length).map (step.id, ·)

theorem mem_places {place : Place} :
    place ∈ places graph ↔ ∃ step ∈ graph.steps, step.id = place.1 ∧
      place.2 < step.tools.length := by
  rcases place with ⟨id, position⟩
  simp [places, and_comm]

theorem nodup_places (graph : TaskGraph) : (places graph).Nodup := by
  apply List.nodup_flatMap.mpr
  constructor
  · exact fun step _ => List.nodup_range.map fun _ _ same => congrArg Prod.snd same
  · apply (List.pairwise_map.mp graph.uniqueIds).imp
    intro first second different place inFirst inSecond
    rcases List.mem_map.mp inFirst with ⟨_, _, rfl⟩
    rcases List.mem_map.mp inSecond with ⟨_, _, same⟩
    exact different (congrArg Prod.fst same).symm

private theorem filterMap_range_getElem? {Item : Type u} {Answer : Type v}
    (answer : Item → Answer) (items : List Item) :
    (List.range items.length).filterMap (fun position => (items[position]?).map answer) =
      items.map answer := by
  induction items with
  | nil => rfl
  | cons item rest induction =>
      rw [List.length_cons, List.range_succ_eq_map, List.filterMap_cons, List.filterMap_map]
      exact congrArg _ induction

/-- The requests at all places are the actions of the plan. -/
theorem filterMap_places (attempt : Attempt) :
    (places graph).filterMap (requestAt tools contract arguments
        (tools.unanswered arguments graph attempt)) =
      tools.actions contract arguments graph.steps := by
  unfold places actions
  rw [List.filterMap_flatMap]
  apply List.flatMap_congr
  intro step listed
  rw [List.filterMap_map]
  have each : ∀ position ∈ List.range step.tools.length,
      (requestAt tools contract arguments (tools.unanswered arguments graph attempt) ∘
        (step.id, ·)) position =
      (step.tools[position]?).map (tools.action contract arguments step) := by
    intro position inside
    have below := List.mem_range.mp inside
    have named : step.tools[position]? = some step.tools[position] :=
      List.getElem?_eq_getElem below
    have found : (tools.unanswered arguments graph attempt).toolAt (step.id, position) =
        some (step, step.tools[position]) := toolAt_eq_some listed named
    simp only [Function.comp, requestAt, found, named, Option.map_some]
  rw [List.filterMap_congr each, filterMap_range_getElem?]

theorem checkTools_ok (flaky : tools.Flaky lower contract failures arguments graph)
    (shared : SharedTools) :
    (tools.answered arguments graph shared).1.checkTools (tools.knownTools shared) =
      .ok () := by
  apply forM_ok
  intro step listed
  apply forM_ok
  intro tool used
  have registered := flaky.registered shared.invoked step listed tool used
  rcases Option.map_eq_some_iff.mp registered with ⟨entry, found, _⟩
  apply if_pos
  apply List.mem_map.mpr
  exact ⟨entry, List.mem_of_find?_eq_some found, by simpa using List.find?_some found⟩

/-- What an execution of the plan has come to, in terms of the service. -/
structure Executed (tools : ToolExecutor) (lower : String → String)
    (contract : String → Tool) (failures : String → Nat) (arguments : Arguments)
    (steps : List PlanStep) (shared : SharedTools) (result : ExecutionResult)
    (left : SharedTools) : Prop where
  completed_iff : result.status = .completed ↔
    (stock shared).Ready failures (tools.actions contract arguments steps)
  failed : result.status ≠ .completed → result.status = .failed ∧
    ∃ failed ∈ result.allToolResults, failed.success = false
  undenied : shared.ledger = none → ∀ reply ∈ result.allToolResults, Undenied lower reply
  serves : ∃ requests, requests ⊆ tools.actions contract arguments steps ∧
    stock left = (stock shared).serve requests ∧
    (result.status ≠ .completed → ¬(stock shared).AllAnswered failures requests)

/-- What an execution is, once its calls have been served in their order. -/
theorem executed_of_ending {run : Execution} {result : ExecutionResult} {made : List Place}
    {replies : List (Place × ToolReply)} {left : SharedTools} {order : List Place}
    (isRun : ∃ attempt, run = tools.unanswered arguments graph attempt)
    (served : ServedAs lower failures
      (order.filterMap (requestAt tools contract arguments run)) order shared replies left)
    (ending : Execution.Ending graph (resultAt replies) result made)
    (same : order.Perm made) :
    Executed tools lower contract failures arguments graph.steps shared result left := by
  rcases isRun with ⟨attempt, rfl⟩
  have returned : ∀ entry ∈ replies, ∃ result, entry.2 = .returned result := by
    intro entry member
    rcases served.returned entry member with ⟨result, isResult, _⟩
    exact ⟨result, isResult⟩
  have distinct : order.Nodup := same.nodup_iff.mpr ending.nodup
  -- The reply at a place that was served, and nothing else, is the result there.
  have replied : ∀ place ∈ order, (place, .returned (resultAt replies place.1 place.2)) ∈
      replies := by
    intro place member
    exact mem_replies_of_mem returned (served.places ▸ member)
  have inside : order ⊆ places graph := fun place member =>
    mem_places.mpr (ending.within place (same.mem_iff.mp member))
  have requests : (order.filterMap (requestAt tools contract arguments
      (tools.unanswered arguments graph attempt))).Subperm
        (tools.actions contract arguments graph.steps) := by
    rw [← filterMap_places attempt]
    rcases List.subperm_of_subset distinct inside with ⟨some_, permuted, part⟩
    exact ⟨_, permuted.filterMap _, part.filterMap _⟩
  have fails : result.status ≠ .completed →
      ¬(stock shared).AllAnswered failures (order.filterMap (requestAt tools contract arguments
        (tools.unanswered arguments graph attempt))) := by
    intro unfinished answered
    rcases (ending.failed unfinished).2 with ⟨place, member, failed, _⟩
    have success := served.answered.mpr answered _ (replied place (same.mem_iff.mpr member))
      _ rfl
    rw [failed] at success
    cases success
  constructor
  · constructor
    · intro completed
      have all : order.Perm (places graph) := by
        apply (List.perm_ext_iff_of_nodup distinct (nodup_places graph)).mpr
        intro place
        refine ⟨fun member => inside member, fun member => ?_⟩
        rcases mem_places.mp member with ⟨step, listed, isStep, below⟩
        apply same.mem_iff.mpr
        rcases place with ⟨id, position⟩
        obtain rfl : step.id = id := isStep
        exact (ending.completed completed step listed position below).1
      have answered : (stock shared).AllAnswered failures (order.filterMap
          (requestAt tools contract arguments (tools.unanswered arguments graph attempt))) := by
        apply served.answered.mp
        intro entry member reply isReply
        have isPlace : entry.1 ∈ order := served.places ▸ List.mem_map_of_mem member
        have keys : (replies.map (·.1)).Nodup := served.places ▸ distinct
        have unique := List.inj_on_of_nodup_map keys member (replied entry.1 isPlace) rfl
        rcases mem_places.mp (inside isPlace) with ⟨step, listed, isStep, below⟩
        have success := (ending.completed completed step listed entry.1.2 below).2
        rw [isStep] at success
        rw [unique] at isReply
        cases isReply
        exact success
      rw [← filterMap_places attempt]
      exact (FlakyService.allAnswered_iff_ready.mp answered).perm (all.filterMap _)
    · intro ready
      by_contra unfinished
      apply fails unfinished
      apply FlakyService.allAnswered_iff_ready.mpr
      rcases requests with ⟨some_, permuted, part⟩
      exact (ready.sublist part).perm permuted
  · intro unfinished
    rcases ending.failed unfinished with ⟨failed, place, member, failure, reported⟩
    exact ⟨failed, _, reported, failure⟩
  · intro keyless reply reported
    rcases ending.reported reply reported with ⟨place, member, rfl⟩
    rcases served.returned _ (replied place (same.mem_iff.mpr member)) with
      ⟨other, isOther, undenied⟩
    cases isOther
    exact undenied keyless
  · exact ⟨_, requests.subset, served.serves, fails⟩

/-- An execution is a list of requests to the service: it completes where the service is
ready for all actions of the plan, and otherwise some request is not answered. -/
theorem executeGraph_executed (acyclic : graph.Acyclic)
    (flaky : tools.Flaky lower contract failures arguments graph)
    (scheduled : tools.Scheduled arguments graph shared) :
    ∃ result left, tools.executeGraph arguments graph shared = (.ok result, left) ∧
      Executed tools lower contract failures arguments graph.steps shared result left := by
  rcases scheduled.ends with ⟨loop, reached, stands, order⟩
  have served := serve_servedAs flaky shared shared scheduled.fresh scheduled.distinct
  have answered := @answered_of_returned
    (tools.unanswered arguments graph (tools.schedule shared)) _ fun entry member => by
      rcases served.returned entry member with ⟨result, isResult, _⟩
      exact ⟨result, isResult⟩
  have ending := Execution.ending_of_finished scheduled.quiet answered acyclic reached stands
  have placed : ∀ place ∈ (tools.schedule shared).order,
      ((tools.unanswered arguments graph (tools.schedule shared)).toolAt place).isSome := by
    intro place member
    rcases ending.within place (order.mem_iff.mp member) with ⟨step, listed, same, below⟩
    rcases place with ⟨id, position⟩
    obtain rfl : step.id = id := same
    have found : (tools.unanswered arguments graph (tools.schedule shared)).toolAt
        (step.id, position) = some (step, step.tools[position]) :=
      toolAt_eq_some listed (List.getElem?_eq_getElem below)
    rw [found]
    rfl
  rw [List.filter_eq_self.mpr placed] at served
  have executed := executed_of_ending ⟨_, rfl⟩ served ending order
  unfold executeGraph
  simp only [checkTools_ok flaky shared, reached]
  exact ⟨_, _, rfl, executed.completed_iff, executed.failed, executed.undenied,
    executed.serves⟩

theorem prepare_eq_ok {plan : Plan} (prepared : tools.prepare plan shared = .ok graph) :
    graph.steps = plan.steps ∧ graph.Acyclic := by
  unfold prepare at prepared
  cases valid : PlanValidator.validate { knownTools := tools.knownTools shared } plan with
  | error error =>
      rw [valid] at prepared
      cases prepared
  | ok validated =>
      rw [valid] at prepared
      rw [← PlanValidator.eq_of_validate valid]
      exact TaskGraph.fromPlan_eq_ok prepared

theorem execute_executed {plan : Plan} (prepared : tools.prepare plan shared = .ok graph)
    (flaky : tools.Flaky lower contract failures arguments graph)
    (scheduled : tools.Scheduled arguments graph shared) :
    ∃ result left, tools.execute plan arguments shared = (.ok result, left) ∧
      Executed tools lower contract failures arguments plan.steps shared result left := by
  rcases prepare_eq_ok prepared with ⟨steps, acyclic⟩
  unfold execute
  simp only [prepared]
  rw [← steps]
  exact executeGraph_executed acyclic flaky scheduled

end ToolExecutor

end Raphael.Agent.Executor
