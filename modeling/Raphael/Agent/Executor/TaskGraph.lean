import Raphael.Agent.Planner.DependencyResolver
import Raphael.Foundation.DependencyOutcome

/-! # The task graph

Plan steps in plan order, and beside them the execution state of each node. Every
state change goes through the transition table and is kept in a log, which the
source does not have and which nothing here reads. -/

namespace Raphael.Agent.Executor

open Core Foundation
open Agent.Planner (DependencyResolver.order DependencyResolver.exists_rank_of_order)

/-- A step state no transition leaves. -/
def terminalStepStates : List StepState :=
  [.succeeded, .failed, .timedOut, .cancelled, .skipped]

def nonSuccessTerminal : List StepState := [.failed, .timedOut, .cancelled, .skipped]

def graphTransitions : StepState → List StepState
  | .pending => [.ready, .skipped, .cancelled]
  | .ready => [.running, .skipped, .cancelled]
  | .running => [.succeeded, .failed, .timedOut, .cancelled]
  | _ => []

/-- The execution state of one plan step. Times are given by their ISO texts. -/
structure GraphNode where
  state : StepState := .pending
  attempts : Int := 0
  result : Option ToolResult := none
  toolResults : List ToolResult := []
  error : String := ""
  startedAt : Option String := none
  completedAt : Option String := none
  interrupted : Bool := false
  timeoutS : Option String := none

/-- The steps of a graph. Their ids are distinct and their dependencies known. -/
structure TaskGraph where
  steps : List PlanStep
  uniqueIds : (steps.map (·.id)).Nodup
  knownDependencies : ∀ step ∈ steps, ∀ dependency ∈ step.dependencies,
    dependency ∈ steps.map (·.id)

namespace TaskGraph

def ids (graph : TaskGraph) : List String := graph.steps.map (·.id)

/-- The first dependency on a step that is not listed, with the step naming it. -/
def unknownDependency (steps : List PlanStep) : Option (String × String) :=
  steps.findSome? fun step =>
    (step.dependencies.find? (· ∉ steps.map (·.id))).map (step.id, ·)

theorem known_of_unknownDependency_eq_none {steps : List PlanStep}
    (none : unknownDependency steps = none) :
    ∀ step ∈ steps, ∀ dependency ∈ step.dependencies, dependency ∈ steps.map (·.id) := by
  intro step member dependency named
  have all := List.findSome?_eq_none_iff.mp none step member
  rw [Option.map_eq_none_iff, List.find?_eq_none] at all
  simpa using all dependency named

/-- The constructor's two checks. -/
def ofSteps (steps : List PlanStep) : Except Error TaskGraph :=
  if uniqueIds : (steps.map (·.id)).Nodup then
    match unknown : unknownDependency steps with
    | some (id, dependency) =>
        .error (.domainValidation
          ("step " ++ Text.repr id ++ " depends on unknown step " ++ Text.repr dependency))
    | none =>
        .ok {
          steps
          uniqueIds
          knownDependencies := known_of_unknownDependency_eq_none unknown }
  else .error (.domainValidation "duplicate step ids in graph")

def fromPlan (plan : Plan) : Except Error TaskGraph := do
  let _ ← DependencyResolver.order plan.steps
  ofSteps plan.steps

def DependsOn (graph : TaskGraph) (id dependency : String) : Prop :=
  ∃ step ∈ graph.steps, step.id = id ∧ dependency ∈ step.dependencies

/-- Some rank is lower for a dependency than for the step that names it. -/
def Acyclic (graph : TaskGraph) : Prop :=
  ∃ rank : String → Nat, ∀ id dependency, graph.DependsOn id dependency →
    rank dependency < rank id

theorem mem_ids {graph : TaskGraph} {step : PlanStep} (member : step ∈ graph.steps) :
    step.id ∈ graph.ids := List.mem_map_of_mem member

theorem exists_step {graph : TaskGraph} {id : String} (member : id ∈ graph.ids) :
    ∃ step ∈ graph.steps, step.id = id := by
  simpa [ids] using member

/-- A step is determined by its id. -/
theorem step_unique {graph : TaskGraph} {first second : PlanStep}
    (firstMember : first ∈ graph.steps) (secondMember : second ∈ graph.steps)
    (same : first.id = second.id) : first = second :=
  List.inj_on_of_nodup_map graph.uniqueIds firstMember secondMember same

theorem dependsOn_iff {graph : TaskGraph} {step : PlanStep}
    (member : step ∈ graph.steps) {dependency : String} :
    graph.DependsOn step.id dependency ↔ dependency ∈ step.dependencies := by
  constructor
  · rintro ⟨other, otherMember, same, named⟩
    rwa [← step_unique otherMember member same]
  · exact fun named => ⟨step, member, rfl, named⟩

theorem mem_ids_of_dependsOn {graph : TaskGraph} {id dependency : String}
    (depends : graph.DependsOn id dependency) : dependency ∈ graph.ids := by
  rcases depends with ⟨step, member, _, named⟩
  exact graph.knownDependencies step member dependency named

theorem Acyclic.wellOrdered {graph : TaskGraph} (acyclic : graph.Acyclic) :
    WellOrdered {id | id ∈ graph.ids} graph.DependsOn := by
  rcases acyclic with ⟨rank, lower⟩
  exact .of_rank (fun _ _ _ depends => mem_ids_of_dependsOn depends) lower

theorem fromPlan_eq_ok {plan : Plan} {graph : TaskGraph} (built : fromPlan plan = .ok graph) :
    graph.steps = plan.steps ∧ graph.Acyclic := by
  simp only [fromPlan, bind, Except.bind] at built
  split at built
  · simp at built
  · rename_i sorted accepted
    unfold ofSteps at built
    split at built
    · rename_i unique
      split at built
      · simp at built
      · cases built
        rcases DependencyResolver.exists_rank_of_order unique accepted with ⟨rank, lower⟩
        refine ⟨rfl, rank, ?_⟩
        rintro _ dependency ⟨step, member, rfl, named⟩
        exact lower step member dependency named
    · simp at built

end TaskGraph

/-- A change of a node's state. -/
structure Change where
  stepId : String
  source : StepState
  target : StepState
  deriving DecidableEq, Repr

/-- The nodes of a graph by step id, and the log of their changes. -/
structure GraphState where
  node : String → GraphNode := fun _ => {}
  changes : List Change := []

namespace GraphState

def table (state : GraphState) (id : String) : StepState := (state.node id).state

/-- Writes of a node that leave its state alone. -/
def amend (state : GraphState) (id : String) (change : GraphNode → GraphNode) : GraphState :=
  { state with node := Function.update state.node id (change (state.node id)) }

/-- `self.state = to_state`. -/
def move (state : GraphState) (id : String) (target : StepState) : GraphState where
  node := Function.update state.node id { state.node id with state := target }
  changes := state.changes ++ [⟨id, state.table id, target⟩]

def transition (state : GraphState) (id : String) (target : StepState) :
    Except Error GraphState :=
  if target ∈ graphTransitions (state.table id) then .ok (state.move id target)
  else
    .error (.domainValidation ("illegal step transition: " ++ (state.table id).value ++
      " -> " ++ target.value ++ " (step " ++ Text.repr id ++ ")"))

theorem transition_of_legal {state : GraphState} {id : String} {target : StepState}
    (legal : target ∈ graphTransitions (state.table id)) :
    state.transition id target = .ok (state.move id target) := by
  simp [transition, legal]

theorem transition_eq_ok {state next : GraphState} {id : String} {target : StepState} :
    state.transition id target = .ok next ↔
      target ∈ graphTransitions (state.table id) ∧ state.move id target = next := by
  unfold transition
  split
  · next legal => simp [legal]
  · next illegal => simp [illegal]

@[simp] theorem table_move (state : GraphState) (id : String) (target : StepState) :
    (state.move id target).table = Function.update state.table id target := by
  funext other
  by_cases same : other = id
  · subst same
    simp [table, move]
  · simp [table, move, Function.update_of_ne same]

@[simp] theorem changes_move (state : GraphState) (id : String) (target : StepState) :
    (state.move id target).changes = state.changes ++ [⟨id, state.table id, target⟩] := rfl

theorem table_amend (state : GraphState) (id : String) (change : GraphNode → GraphNode)
    (keeps : (change (state.node id)).state = (state.node id).state) :
    (state.amend id change).table = state.table := by
  funext other
  by_cases same : other = id
  · subst same
    simpa [table, amend] using keeps
  · simp [table, amend, Function.update_of_ne same]

@[simp] theorem changes_amend (state : GraphState) (id : String)
    (change : GraphNode → GraphNode) : (state.amend id change).changes = state.changes := rfl

/-- `PENDING` nodes whose dependencies all succeeded, in plan order. -/
def ready (graph : TaskGraph) (state : GraphState) : List PlanStep :=
  graph.steps.filter fun step =>
    state.table step.id = .pending ∧
      ∀ dependency ∈ step.dependencies, state.table dependency = .succeeded

/-- The first dependency that ended without success. -/
def badDependency (state : GraphState) (step : PlanStep) : Option String :=
  step.dependencies.find? fun dependency => state.table dependency ∈ nonSuccessTerminal

/-- One turn of the loop of `mark_unsatisfiable`, with the steps skipped so far. -/
def skipUnsatisfiable (current : GraphState × List String) (step : PlanStep) :
    Except Error (GraphState × List String) :=
  let (state, skipped) := current
  if state.table step.id ≠ .pending then .ok current
  else
    match state.badDependency step with
    | none => .ok current
    | some bad => do
        let ended := (state.table bad).value
        let state ← state.transition step.id .skipped
        let error := "dependency " ++ Text.repr bad ++ " ended " ++ ended ++ "; not executed"
        return (state.amend step.id fun node => { node with error }, skipped ++ [step.id])

/-- Skip `PENDING` nodes with a terminal non-success dependency. -/
def markUnsatisfiable (graph : TaskGraph) (state : GraphState) :
    Except Error (GraphState × List String) :=
  graph.steps.foldlM skipUnsatisfiable (state, [])

/-- Every node reached a terminal state. -/
def done (graph : TaskGraph) (state : GraphState) : Bool :=
  graph.steps.all fun step => state.table step.id ∈ terminalStepStates

end GraphState

/-- The persisted node data by step id, in plan order. -/
abbrev Snapshot := List (String × GraphNode)

def GraphState.snapshot (graph : TaskGraph) (state : GraphState) : Snapshot :=
  graph.steps.map fun step => (step.id, state.node step.id)

end Raphael.Agent.Executor
