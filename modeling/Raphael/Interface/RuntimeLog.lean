import Raphael.Agent.Orchestrator.ContextAgreement
import Raphael.Interface.ExecutionViews

/-! # Logs of the runtime

A plan is published by the number of its steps, and read as a list of them. Every other
event that an agent, an executor or a runner publishes is one the adapter takes. -/

namespace Raphael.Interface.Views

open Core Foundation
open Agent.Executor Agent.Orchestrator
open EventAdapter

/-- What a run of one component has published. -/
inductive Publishes : List Event → Prop
  | agent {World : Type} (agent : SingleAgent World) (entry : SingleAgent.Entry)
      (start : AgentState World) (fresh : start.events = []) :
      Publishes (leaves (agent.run entry) start).events
  | executing (run : Execution) (nodes : String → GraphNode) (turns : Nat) (loop : Loop)
      (reached : run.after nodes turns = .ok loop) : Publishes loop.events
  | executed (run : Execution) (nodes : String → GraphNode) (turns : Nat) (loop : Loop)
      (reached : run.after nodes turns = .ok loop) (finished : run.finished loop = true) :
      Publishes (run.finish loop).2.events
  | runner (call : RunnerCall) (fresh : call.state.events = []) : Publishes call.events

/-- The events of any number of runs, in any order. -/
structure RuntimeLog where
  events : List Event
  published : ∀ event ∈ events, ∃ part, Publishes part ∧ event ∈ part

namespace RuntimeLog

variable (log : RuntimeLog)

/-- The adapter takes the log, and shows as many steps as a plan counts. -/
structure Taken : Prop where
  returns : ∀ adapter : EventAdapter,
    (adapter.ingestStore log.events).1 = .ok ((log.events.length : Int) - 1)
  planned : ∀ (adapter : EventAdapter), ∀ event ∈ log.events,
    event.eventType = .planCreated → ∀ count : Nat,
    Json.lookup "steps" event.payload = some (.int count) →
    ∃ ids : List String, ids.Nodup ∧ ids.length = count ∧ ∀ id ∈ ids,
      (((adapter.ingestStore log.events).2.viewOf event.taskId).steps id).isSome

/-- No plan of a task with an id is published, and none with steps. -/
def Unplanned : Prop :=
  ∀ event ∈ log.events, event.eventType = .planCreated →
    event.taskId = "" ∧ Json.lookup "steps" event.payload = some (.int 0)

/-! ## What is published -/

theorem countsPlan_runInvariant {World : Type} {agent : SingleAgent World} :
    RunInvariant agent fun state => ∀ event ∈ state.events, CountsPlan event where
  outside state world counts := by
    unfold SingleAgent.interrupted
    split <;> exact counts
  context _ _ _ counts := counts
  saved _ _ counts := counts
  emits _ _ own counts := List.forall_mem_append.mpr ⟨counts, List.forall_mem_singleton.mpr own⟩
  moves _ _ _ counts := counts

/-- The changes of the nodes are told by other events. -/
theorem counts_of_reports {run : Execution} {nodes : String → GraphNode} {turns : Nat}
    {loop : Loop} (reached : run.after nodes turns = .ok loop) :
    ∀ event ∈ loop.events, CountsPlan event := by
  rcases Execution.after_reports reached with ⟨changes, told, _, published, tells⟩
  rw [published]
  refine List.forall_mem_append.mpr ⟨List.forall_mem_singleton.mpr (by simp [CountsPlan]), ?_⟩
  intro event member plans
  rcases ExecutionLog.tells_of_mem tells member with ⟨change, _, own⟩
  have shows := (ExecutionLog.stepState_of_changeEvent own.kind).1
  rw [plans] at shows
  cases shows

/-- Whatever is published counts the steps of the plans. -/
theorem counts_of_publishes {part : List Event} (publishes : Publishes part) :
    ∀ event ∈ part, CountsPlan event := by
  cases publishes with
  | agent agent entry start fresh =>
      have none : ∀ event ∈ start.events, CountsPlan event := by simp [fresh]
      exact SingleAgent.run_keeps countsPlan_runInvariant (fun _ _ counts => counts) entry
        start none
  | executing run nodes turns loop reached => exact counts_of_reports reached
  | executed run nodes turns loop reached finished =>
      have counts : ∀ event ∈ loop.events, CountsPlan event := counts_of_reports reached
      exact List.forall_mem_append.mpr
        ⟨counts, List.forall_mem_singleton.mpr (by simp [CountsPlan])⟩
  | runner call fresh =>
      intro event member plans
      have listed := RunnerCall.mem_callKinds fresh member
      rw [plans] at listed
      exact absurd listed (by decide)

/-! ## What is taken -/

variable {log}

theorem countsPlan {event : Event} (member : event ∈ log.events) : CountsPlan event := by
  rcases log.published event member with ⟨part, publishes, listed⟩
  exact counts_of_publishes publishes event listed

/-- A number of steps is not gone through. -/
theorem not_lists {event : Event} (plans : event.eventType = .planCreated) {count : Nat}
    (counts : Json.lookup "steps" event.payload = some (.int count)) : ¬ Lists event := by
  intro lists
  rcases lists plans with ⟨ids, listed⟩
  unfold planIds at listed
  rw [counts] at listed
  cases listed

theorem accepted_iff {event : Event} (member : event ∈ log.events) :
    Accepted event ↔ (event.eventType = .planCreated → event.taskId = "") := by
  constructor
  · intro accepted plans
    by_contra named
    rcases countsPlan member plans with ⟨count, counts⟩
    exact not_lists plans counts (accepted named)
  · intro blank named plans
    exact absurd (blank plans) named

theorem returns_iff (adapter : EventAdapter) :
    (adapter.ingestStore log.events).1 = .ok ((log.events.length : Int) - 1) ↔
      ∀ event ∈ log.events, Accepted event := by
  have ingests : (ingestAll log.events adapter).1 = .ok () ↔
      ∀ event ∈ log.events, Accepted event := ingestAll_fst_ok
  rw [ingestStore_fresh, ← ingests]
  cases (ingestAll log.events adapter).1 with
  | ok nothing => exact iff_of_true rfl rfl
  | error error => exact iff_of_false (by simp [Except.map]) (by simp)

/-- No step is shown of the empty id. -/
theorem steps_blank (accepted : ∀ event ∈ log.events, Accepted event) (id : String) :
    ((({} : EventAdapter).ingestStore log.events).2.viewOf "").steps id = none := by
  have untouched : (ingestAll log.events {}).2.tasks "" = none :=
    tasks_ingestAll_of_quiet accepted (.inl rfl) {}
  rw [ingestStore_fresh]
  unfold viewOf
  rw [untouched]
  rfl

/-- A log is taken exactly if it holds no plan of a task with an id, and none with steps. -/
theorem taken_iff_unplanned (log : RuntimeLog) : log.Taken ↔ log.Unplanned := by
  constructor
  · intro taken event member plans
    have accepted := (returns_iff {}).mp (taken.returns {})
    have blank := (accepted_iff member).mp (accepted event member) plans
    rcases countsPlan member plans with ⟨count, counts⟩
    rcases taken.planned {} event member plans count counts with ⟨ids, _, length, shown⟩
    have none : ids = [] := by
      refine List.eq_nil_iff_forall_not_mem.mpr fun id listed => ?_
      have visible := shown id listed
      rw [blank, steps_blank accepted] at visible
      cases visible
    subst none
    subst length
    exact ⟨blank, counts⟩
  · intro unplanned
    have accepted : ∀ event ∈ log.events, Accepted event := fun event member =>
      (accepted_iff member).mpr fun plans => (unplanned event member plans).1
    refine ⟨fun adapter => (returns_iff adapter).mpr accepted, ?_⟩
    intro adapter event member plans count counts
    have none := (unplanned event member plans).2
    rw [counts] at none
    have zero : count = 0 := by simpa using none
    exact ⟨[], List.nodup_nil, zero.symm, fun _ listed => absurd listed List.not_mem_nil⟩

/-- What an agent publishes that plans one step, fails it and has it replanned. -/
def noteLog : RuntimeLog where
  events := (leaves (AgentRun.noteAgent.run (.runTask "write a note")) { world := 0 }).events
  published _ member := ⟨_, .agent AgentRun.noteAgent _ _ rfl, member⟩

/-- The adapter raises on it. -/
theorem noteLog_raises : ¬ noteLog.Taken := by
  have raised : (({} : EventAdapter).ingestStore noteLog.events).1.toOption = none := by
    decide +kernel
  intro taken
  rw [taken.returns {}] at raised
  cases raised

end RuntimeLog

end Raphael.Interface.Views
