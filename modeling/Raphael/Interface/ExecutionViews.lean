import Raphael.Agent.Executor.FailFast
import Raphael.Agent.Executor.StepEvents
import Raphael.Agent.Executor.ToolExecution
import Raphael.Interface.ViewFold
import Raphael.Tools.CallEvents

/-! # What an execution is shown as

The log of one run of the executor, with the events of its calls anywhere in between. Steps
that were restored as settled are not shown at all. The task and the permissions are shown
better than they are when a graph ends without success and without a failed step, and when
the arguments of a call are refused. -/

namespace Raphael.Interface.Views

open Core Foundation
open Agent.Executor
open Tools (RunnerExternals ToolRunner RunState Published)
open Security (Surroundings)
open EventAdapter

/-- One call of the runner. -/
structure RunnerCall where
  externals : RunnerExternals
  surroundings : Surroundings
  runner : ToolRunner
  state : RunState

namespace RunnerCall

def events (call : RunnerCall) : List Event :=
  (ToolRunner.run call.externals call.surroundings call.runner call.state).2.events

def Refused (call : RunnerCall) : Prop :=
  ToolRunner.RefusesArguments call.externals call.surroundings call.runner call.state

/-- The events of a call, all under its id, and the orders of their kinds. -/
theorem published {call : RunnerCall} (fresh : call.state.events = []) :
    (∀ event ∈ call.events, event.taskId = call.state.call.taskId ∧
      Json.lookup "call_id" event.payload = some (.str call.state.call.id)) ∧
    (¬ call.Refused ∧ (call.events.map (·.eventType) = [] ∨
        call.events.map (·.eventType) = [.toolFailed]) ∨
      call.Refused ∧ call.events.map (·.eventType) = [.toolRequested, .toolFailed] ∨
      ¬ call.Refused ∧ ∃ waits ∈ ToolRunner.waitKinds, ∃ ends ∈ ToolRunner.endKinds,
        call.events.map (·.eventType) = [.toolRequested] ++ (waits ++ ends)) := by
  rcases ToolRunner.run_published call.externals call.surroundings call.runner call.state with
    ⟨kinds, published, shape⟩
  rcases published.events with ⟨events, grown, named, each⟩
  rw [fresh, List.nil_append] at grown
  have same : call.events = events := grown
  rw [same, named]
  exact ⟨each, shape⟩

end RunnerCall

def callKinds : List EventType :=
  [.toolRequested, .approvalRequested, .approvalDecided, .permissionGranted,
    .permissionDenied, .toolStarted, .toolCompleted, .toolFailed]

theorem RunnerCall.mem_callKinds {call : RunnerCall} (fresh : call.state.events = [])
    {event : Event} (member : event ∈ call.events) : event.eventType ∈ callKinds := by
  have requested : ∀ waits ∈ ToolRunner.waitKinds, ∀ ends ∈ ToolRunner.endKinds,
      [.toolRequested] ++ (waits ++ ends) ⊆ callKinds := by decide
  have listed : call.events.map (·.eventType) ⊆ callKinds := by
    rcases (published fresh).2 with ⟨_, kinds | kinds⟩ | ⟨_, kinds⟩ |
      ⟨_, waits, waited, ends, ended, kinds⟩
    · simp [kinds]
    · simp [kinds, callKinds]
    · simp [kinds, callKinds]
    · rw [kinds]
      exact requested waits waited ends ended
  exact listed (List.mem_map_of_mem member)

/-- The call that an event is of, if any. -/
def callOf (event : Event) : Option String :=
  match Json.lookup "call_id" event.payload with
  | some (.str id) => some id
  | _ => none

/-- A finished run of the executor over a fresh or restored graph, and what was published on
its way. The calls are those of its steps, each with an id of its own. -/
structure ExecutionLog where
  run : Execution
  nodes : String → GraphNode
  begins : Execution.Begins run.graph nodes
  turns : Nat
  loop : Loop
  reached : run.after nodes turns = .ok loop
  finished : run.finished loop = true
  calls : String → Option RunnerCall
  made : ∀ id call, calls id = some call → call.state.call.id = id ∧ call.state.events = [] ∧
    ∃ step ∈ run.graph.steps, ∃ position tool, call.state.call = run.callAt step position tool
  events : List Event
  ofGraph : (events.filter fun event => callOf event = none) = (run.finish loop).2.events
  ofCalls : ∀ id, (events.filter fun event => callOf event = some id) =
    (calls id).elim [] RunnerCall.events

namespace ExecutionLog

variable (log : ExecutionLog)

def result : ExecutionResult := (log.run.finish log.loop).1

def view : TaskView := (ingestAll log.events {}).2.viewOf log.run.taskId

/-- What is shown is what has happened. -/
structure Truthful : Prop where
  steps : ∀ entry ∈ log.result.states,
    ∃ step, log.view.steps entry.1 = some step ∧ step.state = entry.2
  completed : log.view.state = .completed → log.result.status = .completed
  granted : ∀ id entry, log.view.permissions id = some entry → entry.granted = true →
    ∃ event ∈ log.events, event.eventType = .permissionGranted ∧
      callIdOf event.payload = id

/-- All steps have succeeded, and the token is not cancelled. -/
def Succeeds : Prop :=
  log.run.world.cancelledAtEnd = false ∧
    ∀ id ∈ log.run.graph.ids, log.loop.table id = .succeeded

/-- No step was restored as settled, a graph without success has a failed step, and no call
has its arguments refused. -/
structure Plain : Prop where
  unsettled : ∀ id ∈ log.run.graph.ids, Execution.states log.nodes id ∉ terminalStepStates
  outcome : Execution.HasFailure log.run.graph log.loop.table ∨ log.Succeeds
  arguments : ∀ id call, log.calls id = some call → ¬ call.Refused

/-- Only a task with an id is shown. -/
def Shown : Prop :=
  (log.run.taskId = "" → log.run.graph.ids = []) ∧ (log.run.taskId ≠ "" → log.Plain)

/-! ## The events of a log -/

def graphKinds : List EventType :=
  [.graphStarted, .graphCompleted, .stepReady, .stepStarted, .stepCompleted, .stepFailed,
    .stepTimedOut, .stepCancelled, .stepSkipped]

theorem steady : Execution.Steady log.run log.nodes log.loop :=
  Execution.steady_of_after log.begins.idle log.reached

/-- The start of the graph, the changes of its nodes, and its end. -/
theorem graph_events : ∃ told started ended,
    (log.run.finish log.loop).2.events =
      { eventType := .graphStarted, taskId := log.run.taskId, payload := started } :: (told ++
      [{ eventType := .graphCompleted, taskId := log.run.taskId, payload := ended }]) ∧
    List.Forall₂ log.run.Tells log.loop.changes told := by
  rcases Execution.after_reports log.reached with ⟨changes, told, grown, published, tells⟩
  refine ⟨told, _, _, congrArg (· ++ _) published, ?_⟩
  rw [grown]
  exact tells

variable {log}

theorem tells_of_mem {run : Execution} {changes : List Change} {told : List Event}
    (tells : List.Forall₂ run.Tells changes told) {event : Event} (member : event ∈ told) :
    ∃ change ∈ changes, run.Tells change event := by
  induction tells with
  | nil => cases member
  | cons own _ induction =>
      rcases List.mem_cons.mp member with rfl | later
      · exact ⟨_, List.mem_cons_self, own⟩
      · rcases induction later with ⟨change, listed, tells⟩
        exact ⟨change, List.mem_cons_of_mem _ listed, tells⟩

/-- The event of a change shows its target. -/
theorem stepState_of_changeEvent {target : StepState} {kind : EventType}
    (tells : changeEvent target = some kind) :
    EventAdapter.stepState kind = some target ∧ kind ∈ graphKinds := by
  cases target with
  | pending => cases tells
  | _ =>
      cases tells
      decide

theorem of_graph {event : Event} (member : event ∈ (log.run.finish log.loop).2.events) :
    event.taskId = log.run.taskId ∧ event.eventType ∈ graphKinds := by
  rcases log.graph_events with ⟨told, started, ended, published, tells⟩
  rw [published] at member
  rcases List.mem_cons.mp member with rfl | later
  · exact ⟨rfl, List.mem_cons_self⟩
  · rcases List.mem_append.mp later with change | last
    · rcases tells_of_mem tells change with ⟨_, _, own⟩
      exact ⟨own.task, (stepState_of_changeEvent own.kind).2⟩
    · rw [List.mem_singleton.mp last]
      exact ⟨rfl, List.mem_cons_of_mem _ List.mem_cons_self⟩

/-- A call of the log, with the kinds of its events. -/
theorem call_events {id : String} {call : RunnerCall} (called : log.calls id = some call) :
    (∀ event ∈ call.events, event.taskId = log.run.taskId ∧
      Json.lookup "call_id" event.payload = some (.str id)) ∧
    (¬ call.Refused ∧ (call.events.map (·.eventType) = [] ∨
        call.events.map (·.eventType) = [.toolFailed]) ∨
      call.Refused ∧ call.events.map (·.eventType) = [.toolRequested, .toolFailed] ∨
      ¬ call.Refused ∧ ∃ waits ∈ ToolRunner.waitKinds, ∃ ends ∈ ToolRunner.endKinds,
        call.events.map (·.eventType) = [.toolRequested] ++ (waits ++ ends)) := by
  rcases log.made id call called with ⟨own, fresh, step, _, position, tool, built⟩
  have task : call.state.call.taskId = log.run.taskId := congrArg ToolCall.taskId built
  rw [← own, ← task]
  exact RunnerCall.published fresh

theorem of_call {id : String} {call : RunnerCall} (called : log.calls id = some call)
    {event : Event} (member : event ∈ call.events) : event.eventType ∈ callKinds :=
  RunnerCall.mem_callKinds (log.made id call called).2.1 member

/-- An event is one of the graph, or one of a call. -/
theorem event_cases {event : Event} (member : event ∈ log.events) :
    (callOf event = none ∧ event ∈ (log.run.finish log.loop).2.events) ∨
      ∃ id call, callOf event = some id ∧ log.calls id = some call ∧ event ∈ call.events := by
  cases owner : callOf event with
  | none =>
      refine .inl ⟨rfl, ?_⟩
      rw [← log.ofGraph]
      exact List.mem_filter.mpr ⟨member, decide_eq_true owner⟩
  | some id =>
      have listed : event ∈ (log.calls id).elim [] RunnerCall.events := by
        rw [← log.ofCalls]
        exact List.mem_filter.mpr ⟨member, decide_eq_true owner⟩
      cases called : log.calls id with
      | none =>
          rw [called] at listed
          cases listed
      | some call =>
          rw [called] at listed
          exact .inr ⟨id, call, rfl, called, listed⟩

/-- All events are of the task, and none of them plans. -/
theorem of_log {event : Event} (member : event ∈ log.events) :
    event.taskId = log.run.taskId ∧ event.eventType ∈ graphKinds ++ callKinds := by
  rcases event_cases member with ⟨_, ofGraph⟩ | ⟨id, call, _, called, ofCall⟩
  · exact ⟨(of_graph ofGraph).1, List.mem_append_left _ (of_graph ofGraph).2⟩
  · exact ⟨((call_events called).1 event ofCall).1,
      List.mem_append_right _ (of_call called ofCall)⟩

theorem accepted {event : Event} (member : event ∈ log.events) : Accepted event := by
  intro _ plans
  have listed := (of_log member).2
  rw [plans] at listed
  exact absurd listed (by decide)

theorem ofTask_events : ofTask log.run.taskId log.events = log.events :=
  List.filter_eq_self.mpr fun _ member => decide_eq_true (of_log member).1

/-- What is shown of a cell, in the log of a task with an id. -/
theorem read_view {Cell : Type} {read : TaskView → ToolClock → Cell}
    {cell : Event → Cell → Cell} (follows : Follows read cell) (named : log.run.taskId ≠ "") :
    read log.view ((ingestAll log.events {}).2.clockOf log.run.taskId) =
      pass cell log.events (read {} fun _ => none) := by
  rw [view, read_ingestAll follows named (fun event member => accepted member), ofTask_events]
  rfl

/-- A cell that the calls leave alone moves with the graph. -/
theorem pass_graph {Cell : Type} {cell : Event → Cell → Cell} (start : Cell)
    (idle : ∀ event : Event, event.eventType ∈ callKinds → ∀ state, cell event state = state) :
    pass cell log.events start = pass cell (log.run.finish log.loop).2.events start := by
  rw [pass_filter fun event => callOf event = none, log.ofGraph]
  intro event member owned
  rcases event_cases member with ⟨free, _⟩ | ⟨id, call, _, called, ofCall⟩
  · exact absurd free (of_decide_eq_false owned)
  · exact idle event (of_call called ofCall)

/-! ## The steps -/

/-- The events of the changes show the last state of a step that has changed. -/
theorem pass_told {run : Execution} {changes : List Change} {told : List Event} {id : String}
    (tells : List.Forall₂ run.Tells changes told) (table : StateTable)
    (shown : Option StepView) :
    pass (stepCell id) told shown =
      if id ∈ changes.map (·.stepId) then
        some { shown.getD {} with state := Schedule.replay table changes id }
      else shown := by
  induction tells generalizing table shown with
  | nil => rfl
  | @cons change event changes told own _ induction =>
      have shows := stepState_of_changeEvent own.kind
      have plans : event.eventType ≠ .planCreated := by
        intro plans
        rw [plans] at shows
        cases shows.1
      have names : stepIdOf event.payload = change.stepId := by
        unfold stepIdOf fieldText
        rw [own.step]
        rfl
      rw [pass_cons, stepCell_of_ne plans, names, shows.1, Option.elim_some, List.map_cons,
        induction (Function.update table change.stepId change.target)]
      by_cases mine : id = change.stepId
      · rw [if_pos mine, if_pos (List.mem_cons.mpr (.inl mine))]
        by_cases later : id ∈ changes.map (·.stepId)
        · rw [if_pos later]
          rfl
        · rw [if_neg later]
          have kept : Schedule.replay table (change :: changes) id = change.target :=
            by
            refine (Schedule.replay_of_untouched later).trans ?_
            subst mine
            exact Function.update_self ..
          rw [kept]
      · rw [if_neg mine]
        by_cases later : id ∈ changes.map (·.stepId)
        · rw [if_pos later, if_pos (List.mem_cons_of_mem _ later)]
          rfl
        · rw [if_neg later, if_neg]
          exact fun member => (List.mem_cons.mp member).elim mine later

theorem stepCell_of_quiet {event : Event} {id : String}
    (quiet : event.eventType ≠ .planCreated ∧
      EventAdapter.stepState event.eventType = none) (shown : Option StepView) :
    stepCell id event shown = shown := by
  rw [stepCell_of_ne quiet.1, quiet.2]
  exact ite_self _

theorem stepCell_of_call {event : Event} {id : String} (called : event.eventType ∈ callKinds)
    (shown : Option StepView) : stepCell id event shown = shown := by
  have quiet : ∀ kind ∈ callKinds, kind ≠ .planCreated ∧
      EventAdapter.stepState kind = none := by decide
  exact stepCell_of_quiet (quiet event.eventType called) shown

/-- A step is shown in the state it ends in, if the run has changed it. -/
theorem view_steps (named : log.run.taskId ≠ "") (id : String) :
    log.view.steps id =
      if id ∈ log.loop.changes.map (·.stepId) then some { state := log.loop.table id }
      else none := by
  have tracked := log.steady.tracked
  rcases log.graph_events with ⟨told, started, ended, published, tells⟩
  rw [read_view (follows_steps id) named, pass_graph none fun _ called =>
    stepCell_of_call called, published, pass_cons, pass_concat,
    stepCell_of_quiet (by simp [EventAdapter.stepState]),
    stepCell_of_quiet (by simp [EventAdapter.stepState]),
    pass_told tells (Execution.states log.nodes), ← tracked.table_eq]
  rfl

theorem result_states :
    log.result.states = log.run.graph.ids.map fun id => (id, log.loop.table id) := by
  rw [← Execution.table_stampCompletion log.run log.loop]
  rfl

theorem settled : ∀ id ∈ log.run.graph.ids, log.loop.table id ∈ terminalStepStates :=
  Execution.terminal_of_done (Execution.done_of_finished log.steady log.finished)

theorem table_of_change {change : Change} (member : change ∈ log.loop.changes)
    (settles : change.target ∈ terminalStepStates) :
    log.loop.table change.stepId = change.target := by
  rw [log.steady.tracked.table_eq]
  exact log.steady.tracked.accepted.replay_of_mem member settles

/-- The run changes exactly the steps that were not settled before. -/
theorem mem_changes_iff {id : String} (listed : id ∈ log.run.graph.ids) :
    id ∈ log.loop.changes.map (·.stepId) ↔
      Execution.states log.nodes id ∉ terminalStepStates := by
  have tracked := log.steady.tracked
  constructor
  · intro changed
    rcases List.mem_map.mp changed with ⟨change, member, rfl⟩
    exact tracked.accepted.unsettled_of_mem member
  · intro unsettled
    by_contra untouched
    have ends := settled id listed
    rw [tracked.table_eq, Schedule.replay_of_untouched untouched] at ends
    exact unsettled ends

theorem steps_iff (named : log.run.taskId ≠ "") :
    (∀ entry ∈ log.result.states,
      ∃ step, log.view.steps entry.1 = some step ∧ step.state = entry.2) ↔
    ∀ id ∈ log.run.graph.ids, Execution.states log.nodes id ∉ terminalStepStates := by
  rw [result_states, List.forall_mem_map]
  refine forall₂_congr fun id listed => ?_
  rw [view_steps named, ← mem_changes_iff listed]
  constructor
  · rintro ⟨step, shown, _⟩
    by_contra untouched
    rw [if_neg untouched] at shown
    cases shown
  · intro changed
    rw [if_pos changed]
    exact ⟨_, rfl, rfl⟩

/-! ## The task -/

/-- The states that make a task shown as failed. -/
def failures : List StepState := [.failed, .timedOut]

theorem pass_phase {run : Execution} {changes : List Change} {told : List Event}
    (tells : List.Forall₂ run.Tells changes told) :
    pass phaseCell told .failed = .failed ∧
      pass phaseCell told .executing =
        if ∃ change ∈ changes, change.target ∈ failures then .failed else .executing := by
  induction tells with
  | nil => exact ⟨rfl, (if_neg (by simp)).symm⟩
  | @cons change event changes told own _ induction =>
      have one : ∀ state, phaseCell event state =
          if change.target ∈ failures then .failed else state := by
        intro state
        have kind := own.kind
        unfold phaseCell
        cases target : change.target with
        | pending =>
            rw [target] at kind
            cases kind
        | _ =>
            rw [target] at kind
            rw [← Option.some.inj kind]
            rfl
      rw [pass_cons, pass_cons, one, one, ite_self]
      refine ⟨induction.1, ?_⟩
      simp only [List.exists_mem_cons_iff]
      by_cases fails : change.target ∈ failures
      · rw [if_pos fails, if_pos (.inl fails)]
        exact induction.1
      · simp only [fails, if_false, false_or]
        exact induction.2

theorem phaseCell_of_call {event : Event} (called : event.eventType ∈ callKinds)
    (state : TaskState) : phaseCell event state = state := by
  unfold phaseCell
  generalize event.eventType = kind at called
  cases kind <;> first | rfl | exact absurd called (by decide)

/-- A task is shown as failed if a step has failed in the run, and else as completed. -/
theorem view_state (named : log.run.taskId ≠ "") :
    log.view.state =
      if ∃ change ∈ log.loop.changes, change.target ∈ failures then .failed
      else .completed := by
  rcases log.graph_events with ⟨told, started, ended, published, tells⟩
  rw [read_view follows_state named, pass_graph _ fun _ called => phaseCell_of_call called,
    published, pass_cons, pass_concat]
  refine (congrArg _ (pass_phase tells).2).trans ?_
  split
  · rfl
  · rfl

/-- Behind nodes that were not settled, a failed step is one that has failed in the run. -/
theorem hasFailure_iff
    (unsettled : ∀ id ∈ log.run.graph.ids, Execution.states log.nodes id ∉ terminalStepStates) :
    Execution.HasFailure log.run.graph log.loop.table ↔
      ∃ change ∈ log.loop.changes, change.target ∈ failures := by
  have tracked := log.steady.tracked
  constructor
  · rintro ⟨id, listed, failed⟩
    have fails : log.loop.table id ∈ failures := by simpa [failures] using failed
    have changed : log.loop.table id ≠ Execution.states log.nodes id := by
      intro same
      exact unsettled id listed (same ▸ settled id listed)
    rw [tracked.table_eq] at changed fails
    rcases Schedule.exists_change changed with ⟨change, member, _, target⟩
    exact ⟨change, member, target ▸ fails⟩
  · rintro ⟨change, member, fails⟩
    have terminal : ∀ state ∈ failures, state ∈ terminalStepStates := by decide
    refine ⟨change.stepId, tracked.accepted.mem_ids_of_mem member, ?_⟩
    rw [table_of_change member (terminal _ fails)]
    simpa [failures] using fails

theorem result_status : log.result.status = .completed ↔ log.Succeeds := by
  have status : log.result.status = log.run.overallStatus (log.run.stampCompletion log.loop) :=
    rfl
  rw [status]
  unfold Execution.overallStatus Succeeds TaskGraph.ids
  rw [Execution.table_stampCompletion, List.forall_mem_map]
  cases log.run.world.cancelledAtEnd with
  | true => simp
  | false =>
      simp only [Bool.false_eq_true, if_false, true_and]
      split
      · next all => exact iff_of_true rfl (by simpa using all)
      · next some => exact iff_of_false (by simp) (by simpa using some)

theorem completed_iff (named : log.run.taskId ≠ "")
    (unsettled : ∀ id ∈ log.run.graph.ids, Execution.states log.nodes id ∉ terminalStepStates) :
    (log.view.state = .completed → log.result.status = .completed) ↔
      Execution.HasFailure log.run.graph log.loop.table ∨ log.Succeeds := by
  rw [view_state named, hasFailure_iff unsettled, result_status]
  split
  · next failed => exact iff_of_true (fun none => by cases none) (.inl failed)
  · next unfailed =>
      rw [or_iff_right unfailed]
      exact forall_prop_of_true rfl

/-! ## The permissions -/

/-- Whether a permission is decided, and granted. -/
abbrev Verdict := Option (Bool × Bool)

def verdictOf (permission : Option PermissionView) : Verdict :=
  permission.map fun entry => (entry.decided, entry.granted)

/-- What an event of a kind makes of the permission of its call. -/
def judge (kind : EventType) (verdict : Verdict) : Verdict :=
  match kind with
  | .toolRequested => some (verdict.getD (false, false))
  | .toolCompleted | .toolFailed =>
      verdict.map fun given => if given.1 then given else (true, true)
  | .permissionGranted => some (true, true)
  | .permissionDenied => some (true, false)
  | _ => verdict

/-- A call with events of these kinds is shown as granted. -/
def ShownGranted (kinds : List EventType) : Prop :=
  (pass judge kinds none).map (·.2) = some true

instance (kinds : List EventType) : Decidable (ShownGranted kinds) :=
  inferInstanceAs (Decidable (_ = _))

theorem verdictOf_callStep (event : Event) (shown : CallView) :
    verdictOf (callStep event shown).permission =
      judge event.eventType (verdictOf shown.permission) := by
  rcases shown with ⟨activity, permission, started⟩
  unfold callStep CallView.change judge
  cases event.eventType with
  | toolRequested => cases permission <;> rfl
  | toolCompleted | toolFailed =>
      cases permission with
      | none => rfl
      | some entry =>
          rcases entry with ⟨tool, reason, decided, granted⟩
          cases decided <;> rfl
  | _ => rfl

theorem verdictOf_pass (events : List Event) :
    verdictOf (pass callStep events {}).permission =
      pass judge (events.map (·.eventType)) none :=
  pass_reads (fun shown : CallView => verdictOf shown.permission) verdictOf_callStep events {}

theorem callCell_of_graph {event : Event} {id : String} (told : event.eventType ∈ graphKinds)
    (shown : CallView) : callCell id event shown = shown := by
  unfold callCell callStep CallView.change
  generalize event.eventType = kind at told
  cases kind <;> first | exact ite_self _ | exact absurd told (by decide)

theorem callIdOf_of_call {id : String} {call : RunnerCall} (called : log.calls id = some call)
    {event : Event} (member : event ∈ call.events) : callIdOf event.payload = id := by
  unfold callIdOf fieldText
  rw [((call_events called).1 event member).2]
  rfl

/-- What is shown of a call is what its own events make of it. -/
theorem view_call (named : log.run.taskId ≠ "") (id : String) :
    callView log.view ((ingestAll log.events {}).2.clockOf log.run.taskId) id =
      pass callStep ((log.calls id).elim [] RunnerCall.events) {} := by
  rw [read_view (follows_call id) named, pass_filter fun event => callOf event = some id,
    log.ofCalls]
  · apply pass_congr
    intro event member shown
    cases called : log.calls id with
    | none =>
        rw [called] at member
        cases member
    | some call =>
        rw [called] at member
        exact if_pos (callIdOf_of_call called member).symm
  · intro event member owned shown
    rcases event_cases member with ⟨_, ofGraph⟩ | ⟨other, call, owner, called, ofCall⟩
    · exact callCell_of_graph (of_graph ofGraph).2 shown
    · apply if_neg
      rintro same
      rw [callIdOf_of_call called ofCall] at same
      exact of_decide_eq_false owned (same ▸ owner)

/-- Which permissions are shown as granted. -/
theorem view_granted (named : log.run.taskId ≠ "") (id : String) :
    (∃ entry, log.view.permissions id = some entry ∧ entry.granted = true) ↔
      ∃ call, log.calls id = some call ∧ ShownGranted (call.events.map (·.eventType)) := by
  have shown : log.view.permissions id =
      (pass callStep ((log.calls id).elim [] RunnerCall.events) {}).permission :=
    congrArg CallView.permission (view_call named id)
  have reads : ∀ permission : Option PermissionView,
      (∃ entry, permission = some entry ∧ entry.granted = true) ↔
        (verdictOf permission).map (·.2) = some true := by
    intro permission
    cases permission with
    | none => simp [verdictOf]
    | some entry => simp [verdictOf]
  rw [reads, shown, verdictOf_pass]
  cases called : log.calls id with
  | none => exact iff_of_false (by simp [pass_nil]) (by simp)
  | some call =>
      simp only [Option.some.injEq, exists_eq_left']
      rfl

/-- The kinds of the events of a call tell whether it was granted. -/
theorem granted_told {id : String} {call : RunnerCall} (called : log.calls id = some call) :
    (∃ event ∈ log.events, event.eventType = .permissionGranted ∧
        callIdOf event.payload = id) ↔
      .permissionGranted ∈ call.events.map (·.eventType) := by
  constructor
  · rintro ⟨event, member, kind, named⟩
    rcases event_cases member with ⟨_, ofGraph⟩ | ⟨other, owner, _, owned, ofCall⟩
    · have told := (of_graph ofGraph).2
      rw [kind] at told
      exact absurd told (by decide)
    · obtain rfl := (callIdOf_of_call owned ofCall).symm.trans named
      cases called.symm.trans owned
      exact kind ▸ List.mem_map_of_mem ofCall
  · intro granted
    rcases List.mem_map.mp granted with ⟨event, member, kind⟩
    have listed : event ∈ log.events.filter fun event => callOf event = some id := by
      rw [log.ofCalls, called]
      exact member
    exact ⟨event, List.mem_of_mem_filter listed, kind, callIdOf_of_call called member⟩

/-- A call is shown as granted without being granted exactly if it was refused. -/
theorem shownGranted_iff {id : String} {call : RunnerCall} (called : log.calls id = some call) :
    (ShownGranted (call.events.map (·.eventType)) →
      .permissionGranted ∈ call.events.map (·.eventType)) ↔ ¬ call.Refused := by
  have quiet : ∀ waits ∈ ToolRunner.waitKinds, ∀ ends ∈ ToolRunner.endKinds,
      ShownGranted ([.toolRequested] ++ (waits ++ ends)) →
        .permissionGranted ∈ [.toolRequested] ++ (waits ++ ends) := by decide
  rcases (call_events called).2 with
    ⟨accepts, none | failed⟩ | ⟨refused, kinds⟩ | ⟨accepts, waits, waited, ends, ended, kinds⟩
  · rw [none]
    exact iff_of_true (by decide) accepts
  · rw [failed]
    exact iff_of_true (by decide) accepts
  · rw [kinds]
    exact iff_of_false (by decide) (not_not.mpr refused)
  · rw [kinds]
    exact iff_of_true (quiet waits waited ends ended) accepts

theorem granted_iff (named : log.run.taskId ≠ "") :
    (∀ id entry, log.view.permissions id = some entry → entry.granted = true →
      ∃ event ∈ log.events, event.eventType = .permissionGranted ∧
        callIdOf event.payload = id) ↔
    ∀ id call, log.calls id = some call → ¬ call.Refused := by
  refine forall_congr' fun id => ?_
  constructor
  · intro truthful call called
    refine (shownGranted_iff called).mp fun shown => (granted_told called).mp ?_
    rcases (view_granted named id).mpr ⟨call, called, shown⟩ with ⟨entry, held, granted⟩
    exact truthful entry held granted
  · intro accepts entry held granted
    rcases (view_granted named id).mp ⟨entry, held, granted⟩ with ⟨call, called, shown⟩
    exact (granted_told called).mpr ((shownGranted_iff called).mpr (accepts call called) shown)

/-! ## The shown and the true -/

/-- Nothing is shown of a task without an id. -/
theorem view_of_blank (blank : log.run.taskId = "") : log.view = {} := by
  have untouched : (ingestAll log.events {}).2.tasks log.run.taskId = none :=
    tasks_ingestAll_of_quiet (fun _ member => accepted member) (.inl blank) {}
  unfold view viewOf
  rw [untouched]
  rfl

theorem truthful_of_blank (blank : log.run.taskId = "") :
    log.Truthful ↔ log.run.graph.ids = [] := by
  have none := view_of_blank blank
  constructor
  · intro truthful
    have hidden := truthful.steps
    rw [result_states, List.forall_mem_map] at hidden
    refine List.eq_nil_iff_forall_not_mem.mpr fun id listed => ?_
    rcases hidden id listed with ⟨step, shown, _⟩
    rw [none] at shown
    cases shown
  · intro empty
    refine ⟨?_, fun completed => ?_, fun id entry held => ?_⟩
    · rw [result_states, empty]
      exact fun _ member => absurd member List.not_mem_nil
    · rw [none] at completed
      cases completed
    · rw [none] at held
      cases held

/-- An execution is shown as it is exactly if its task has an id, no step was restored as
settled, a graph without success has a failed step, and no call has its arguments refused. -/
theorem truthful_iff_shown (log : ExecutionLog) : log.Truthful ↔ log.Shown := by
  unfold Shown
  by_cases blank : log.run.taskId = ""
  · rw [truthful_of_blank blank]
    exact ⟨fun empty => ⟨fun _ => empty, fun named => absurd blank named⟩,
      fun shown => shown.1 blank⟩
  · constructor
    · intro truthful
      have unsettled := (steps_iff blank).mp truthful.steps
      exact ⟨fun unnamed => absurd unnamed blank, fun _ => ⟨unsettled,
        (completed_iff blank unsettled).mp truthful.completed,
        (granted_iff blank).mp truthful.granted⟩⟩
    · intro shown
      have plain := shown.2 blank
      exact ⟨(steps_iff blank).mpr plain.unsettled,
        (completed_iff blank plain.unsettled).mpr plain.outcome,
        (granted_iff blank).mpr plain.arguments⟩

/-- A run that is cancelled before its only step starts. -/
def cancelledRun : Execution where
  executor := Execution.defaultExecutor
  taskId := "t"
  graph := Readers.singleGraph
  world := {
    turn := fun _ =>
      { cancelledAtHead := true, cancelledAtStop := true, cancelledAtSubmit := true }
    reply := fun _ _ => .returned {}
    cancelledAtEnd := true }

def cancelledLoop : Loop :=
  ((cancelledRun.after Execution.freshNodes 1).toOption).getD { node := Execution.freshNodes }

theorem calls_of_cancelled :
    (cancelledRun.finish cancelledLoop).2.events.map callOf = [none, none, none] := rfl

/-- Its log, without any calls. -/
def cancelledLog : ExecutionLog where
  run := cancelledRun
  nodes := Execution.freshNodes
  begins := ⟨Readers.singlePlan, Readers.fromPlan_single, .inl rfl⟩
  turns := 1
  loop := cancelledLoop
  reached := rfl
  finished := rfl
  calls := fun _ => none
  made := fun _ _ none => by cases none
  events := (cancelledRun.finish cancelledLoop).2.events
  ofGraph := rfl
  ofCalls := by
    intro id
    refine List.filter_eq_nil_iff.mpr fun event member => ?_
    have listed := List.mem_map_of_mem (f := callOf) member
    rw [calls_of_cancelled] at listed
    have free : callOf event = none := by simpa using listed
    simp [free]

/-- It is shown as completed. -/
theorem cancelled_shown_completed : ¬ cancelledLog.Truthful := by
  intro truthful
  have shown : cancelledLog.view.state = .completed := rfl
  have status : cancelledLog.result.status = .cancelled := rfl
  cases status.symm.trans (truthful.completed shown)

end ExecutionLog

end Raphael.Interface.Views
