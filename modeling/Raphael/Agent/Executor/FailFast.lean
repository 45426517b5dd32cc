import Raphael.Agent.Executor.ExecutorSafety
import Raphael.Agent.Executor.GraphActs
import Raphael.Agent.Executor.RestoredGraph

/-! # Halting on a failure

`halting` is raised at the end of a turn that finds a failed node. A restored graph can
hold failed nodes before the first turn, which looks at the flag only. -/

namespace Raphael.Agent.Executor

open Core Foundation

namespace Execution

variable {run : Execution} {nodes : String → GraphNode}

/-- Some node of the graph is `FAILED` or `TIMED_OUT`. -/
def HasFailure (graph : TaskGraph) (table : StateTable) : Prop :=
  ∃ id ∈ graph.ids, table id = .failed ∨ table id = .timedOut

/-- No step of the log is started at a moment when some node has failed. -/
def HaltsOnFailure (run : Execution) (nodes : String → GraphNode) (log : List Change) : Prop :=
  ∀ front change back, log = front ++ change :: back → change.target = .running →
    ¬ HasFailure run.graph (Schedule.replay (states nodes) front)

/-- The graph is fresh or a restored one, of a plan that is accepted. -/
def Begins (graph : TaskGraph) (nodes : String → GraphNode) : Prop :=
  ∃ plan, TaskGraph.fromPlan plan = .ok graph ∧
    (nodes = freshNodes ∨
      ∃ readers snapshot, Readers.restore readers plan snapshot = .ok (graph, nodes))

/-- The first turn starts no step: the token is cancelled by then, or no `PENDING` step has
all its dependencies `SUCCEEDED`. -/
def StartsNothing (run : Execution) (nodes : String → GraphNode) : Prop :=
  (run.world.turn 0).cancelledAtHead = true ∨ (run.world.turn 0).cancelledAtSubmit = true ∨
    GraphState.ready run.graph { node := nodes } = []

/-! ## Changes that are no failures -/

/-- A state that is no failure. -/
def NotFailed (state : StepState) : Prop := state ≠ .failed ∧ state ≠ .timedOut

instance : DecidablePred NotFailed := fun state =>
  inferInstanceAs (Decidable (state ≠ .failed ∧ state ≠ .timedOut))

theorem hasFailure_of_notFailed {start : StateTable} {log added : List Change}
    (others : ∀ change ∈ added, NotFailed change.target)
    (fails : HasFailure run.graph (Schedule.replay start (log ++ added))) :
    HasFailure run.graph (Schedule.replay start log) := by
  induction added using List.reverseRecOn with
  | nil => simpa using fails
  | append_singleton front change induction =>
      rw [← List.append_assoc, Schedule.replay_concat] at fails
      apply induction fun other member => others other (List.mem_append_left _ member)
      rcases fails with ⟨id, listed, failed⟩
      refine ⟨id, listed, ?_⟩
      by_cases same : id = change.stepId
      · subst same
        rw [Function.update_self] at failed
        have other := others change (List.mem_append_right _ List.mem_cons_self)
        rcases failed with failed | timedOut
        · exact absurd failed other.1
        · exact absurd timedOut other.2
      · rwa [Function.update_of_ne same] at failed

theorem haltsOnFailure_append {log added : List Change} (halts : run.HaltsOnFailure nodes log)
    (more : ∀ front change back, added = front ++ change :: back → change.target = .running →
      ¬ HasFailure run.graph (Schedule.replay (states nodes) (log ++ front))) :
    run.HaltsOnFailure nodes (log ++ added) := by
  intro front change back shape begins
  rcases List.append_eq_append_iff.mp shape with ⟨rest, rfl, later⟩ | ⟨rest, rfl, later⟩
  · exact more rest change back later begins
  · cases rest with
    | nil =>
        simp only [List.nil_append] at later
        simpa using more [] change back later.symm begins
    | cons first rest =>
        obtain ⟨rfl, rfl⟩ := List.cons.inj later
        exact halts front change rest rfl begins

/-! ## One turn -/

private theorem notFailed_stopping : ∀ target ∈ [StepState.cancelled], NotFailed target := by
  decide

private theorem notFailed_starting :
    ∀ target ∈ [StepState.ready, .running], NotFailed target := by
  decide

private theorem hasFailure_of_acts {targets : List StepState} {before after : GraphState}
    (acts : run.Acts targets before after) (others : ∀ target ∈ targets, NotFailed target)
    (fails : HasFailure run.graph after.table) : HasFailure run.graph before.table := by
  rcases fails with ⟨id, listed, failed⟩
  refine ⟨id, listed, ?_⟩
  rcases acts.table_cases id with same | moved
  · rwa [same] at failed
  · rcases failed with failed | timedOut
    · exact absurd failed (others _ moved).1
    · exact absurd timedOut (others _ moved).2

/-- What has failed at the end of a turn that collects is seen at once. -/
theorem halting_of_collectPhase {loop after : Loop} {turn : Turn}
    (policy : run.executor.failurePolicy = .failFast)
    (done : run.collectPhase turn loop = .ok after)
    (fails : HasFailure run.graph after.table) : after.halting = true := by
  rcases collectPhase_cases done with ⟨_, skipped, _, _, rfl⟩
  rcases fails with ⟨id, listed, failed⟩
  rcases TaskGraph.exists_step listed with ⟨step, member, rfl⟩
  have first : run.firstFailure skipped = true :=
    List.any_eq_true.mpr ⟨step, member, decide_eq_true failed⟩
  change (skipped.halting || (run.firstFailure skipped && _)) = true
  rw [first, policy]
  simp

/-- Behind every turn the log halts on failures, and the flag is raised if there is one. -/
structure Halting (run : Execution) (nodes : String → GraphNode) (loop : Loop) : Prop where
  halts : run.HaltsOnFailure nodes loop.changes
  raised : HasFailure run.graph loop.table → loop.halting = true

/-- Where the flag is raised, or the token is cancelled, nothing is started. -/
private theorem submitPhase_of_halting {loop after : Loop} {turn : Turn}
    (halting : loop.halting = true) (done : run.submitPhase turn loop = .ok after) :
    after = loop := by
  unfold submitPhase at done
  rw [halting] at done
  simp only [Bool.not_true, Bool.and_false, Bool.false_eq_true, if_false] at done
  exact (Except.ok.inj done).symm

/-- The log of a turn whose steps are started behind no failure. -/
private theorem halts_of_phases {loop stopped started after : Loop} {turn : Turn}
    (halts : run.HaltsOnFailure nodes loop.changes)
    (stops : run.stopPhase turn loop = .ok stopped)
    (starts : run.submitPhase turn stopped = .ok started)
    (settles : run.Acts settlingStates started.toGraphState after.toGraphState)
    (clear : started ≠ stopped →
      ¬ HasFailure run.graph (Schedule.replay (states nodes) loop.changes)) :
    run.HaltsOnFailure nodes after.changes := by
  rcases (stopPhase_acts stops).changes with ⟨stopping, stopped_eq, stoppingTo⟩
  rcases (submitPhase_acts starts).changes with ⟨starting, started_eq, startingTo⟩
  rcases settles.changes with ⟨settling, settled_eq, settlingTo⟩
  rw [settled_eq]
  apply haltsOnFailure_append
  · rw [started_eq]
    apply haltsOnFailure_append
    · rw [stopped_eq]
      apply haltsOnFailure_append halts
      rintro front change back rfl begins
      have target := stoppingTo change (by simp)
      rw [begins] at target
      exact absurd target (by decide)
    · rintro front change back rfl begins fails
      rw [stopped_eq] at fails
      refine clear ?_ (hasFailure_of_notFailed
        (fun change member => notFailed_stopping _ (stoppingTo change member))
        (hasFailure_of_notFailed (fun change member =>
          notFailed_starting _ (startingTo change (List.mem_append_left _ member))) fails))
      rintro rfl
      have lengths := congrArg List.length started_eq
      simp at lengths
  · rintro front change back rfl begins
    have target := settlingTo change (by simp)
    rw [begins] at target
    exact absurd target (by decide)

theorem Halting.iterate {loop after : Loop} {turn : Turn}
    (policy : run.executor.failurePolicy = .failFast) (steady : Steady run nodes loop)
    (halting : run.Halting nodes loop) (goesOn : run.finished loop = false)
    (done : run.iterate turn loop = .ok after) : run.Halting nodes after := by
  rcases iterate_cases done with ⟨stopped, started, stops, starts, settles⟩
  rcases stopPhase_ok turn steady.toSound with ⟨_, stops', stoppedSound, stoppedExtends, _⟩
  obtain rfl := Except.ok.inj (stops.symm.trans stops')
  rcases submitPhase_ok turn stoppedSound with ⟨_, starts', startedSound, startedExtends, _⟩
  obtain rfl := Except.ok.inj (starts.symm.trans starts')
  constructor
  · apply halts_of_phases halting.halts stops starts (settles_acts settles)
    intro moved fails
    rw [← steady.tracked.table_eq] at fails
    exact moved (submitPhase_of_halting
      (stoppedExtends.halting.trans (halting.raised fails)) starts)
  · intro fails
    rcases settles with ⟨empty, rfl⟩ | ⟨flying, collects⟩
    · have running : loop.broke = false := by
        simp only [finished, Bool.or_eq_false_iff] at goesOn
        exact goesOn.2
      have broke := (stoppedExtends.trans startedExtends).broke.trans running
      rcases drainPhase_ok startedSound broke empty with ⟨_, _, _, _, same, _⟩
      rw [same, startedExtends.halting, stoppedExtends.halting]
      apply halting.raised
      apply hasFailure_of_acts (stopPhase_acts stops) notFailed_stopping
      apply hasFailure_of_acts (submitPhase_acts starts) notFailed_starting
      exact hasFailure_of_acts (drainPhase_acts started) (by decide) fails
    · exact halting_of_collectPhase policy collects fails

/-! ## A whole run -/

/-- Where nothing has failed before the first turn, every turn halts on failures. -/
theorem halting_after (policy : run.executor.failurePolicy = .failFast)
    (idle : ∀ id, states nodes id ≠ .running)
    (unfailed : ¬ HasFailure run.graph (states nodes)) {turns : Nat} {loop : Loop}
    (reached : run.after nodes turns = .ok loop) : run.Halting nodes loop := by
  induction turns generalizing loop with
  | zero =>
      obtain rfl := Except.ok.inj reached
      constructor
      · intro front change back shape
        exact absurd shape (by simp [start, persist, emit])
      · exact fun fails => absurd fails unfailed
  | succ turns induction =>
      rcases after_ok idle turns with ⟨before, earlier, steady⟩
      have halting := induction earlier
      cases stands : run.finished before with
      | true =>
          obtain rfl := Except.ok.inj ((after_succ_of_finished earlier stands).symm.trans reached)
          exact halting
      | false =>
          exact halting.iterate policy steady stands
            ((after_succ_of_goesOn earlier stands).symm.trans reached)

private theorem not_pending_of_stop {turn : Turn} {step : PlanStep} {loop after : Loop}
    (done : run.stop turn loop step = .ok after) : after.table step.id ≠ .pending := by
  rcases stop_cases done with ⟨settled, rfl⟩ | ⟨_, rfl⟩
  · exact fun pending => settled (.inl pending)
  · have marked := GraphState.table_amend (loop.toGraphState.move step.id .cancelled) step.id
      (fun node => { node with error := "never started: " ++ stopReason turn }) rfl
    intro pending
    rw [GraphState.table_move] at marked
    have cancelled := congrFun marked step.id
    rw [Function.update_self] at cancelled
    exact absurd (cancelled.symm.trans pending) (by decide)

/-- No step is left pending by a turn that stops the unstarted ones. -/
theorem not_pending_of_stopAll {turn : Turn} {steps : List PlanStep} {loop after : Loop}
    (done : steps.foldlM (run.stop turn) loop = .ok after) :
    ∀ step ∈ steps, after.table step.id ≠ .pending := by
  induction steps generalizing loop with
  | nil => simp
  | cons step rest induction =>
      rw [List.foldlM_cons] at done
      rcases except_bind_eq_ok.mp done with ⟨middle, stopped, later⟩
      rw [List.forall_mem_cons]
      refine ⟨?_, induction later⟩
      rcases (stopAll_acts later).table_cases step.id with same | cancelled
      · rw [same]
        exact not_pending_of_stop stopped
      · rw [List.mem_singleton.mp cancelled]
        decide

/-- Draining is the last turn. -/
theorem finished_drainPhase {loop : Loop} (sound : Sound run nodes loop)
    (empty : loop.inFlight = []) : run.finished (run.drainPhase loop) = true := by
  unfold drainPhase
  rcases drainStuck_ok sound empty with ⟨none, _⟩ | ⟨next, some_, sound', _, landed, drained, _⟩
  · rw [none]
    exact Bool.or_true _
  · rw [some_]
    apply Bool.or_eq_true_iff.mpr
    left
    change next.done run.graph = true
    rw [GraphState.done, List.all_eq_true]
    intro step listed
    have idle : next.table step.id ≠ .running := by
      intro runs
      have flies := (sound'.flying step.id).mpr runs
      rw [landed] at flies
      cases flies
    rcases drained step.id with ⟨_, skipped, _⟩ | ⟨same, settled⟩
    · rw [skipped]
      decide
    · have settled := settled (TaskGraph.mem_ids listed)
      rw [← same] at settled
      cases state : next.table step.id <;> simp_all [terminalStepStates, Waiting]

/-- A first turn that is to start nothing starts nothing. -/
theorem submitPhase_of_startsNothing (nothing : run.StartsNothing nodes) {stopped started : Loop}
    (stops : run.stopPhase (run.world.turn 0) (run.start nodes) = .ok stopped)
    (starts : run.submitPhase (run.world.turn 0) stopped = .ok started) :
    started = stopped := by
  have idle_of_ready : stopped.toGraphState.ready run.graph = [] → started = stopped := by
    intro none
    unfold submitPhase submitReady at starts
    rw [none] at starts
    unfold submitAll at starts
    split at starts <;> exact (Except.ok.inj starts).symm
  unfold stopPhase at stops
  split at stops
  · -- The token is cancelled at the head of the turn.
    apply idle_of_ready
    rw [GraphState.ready, List.filter_eq_nil_iff]
    intro step listed ready
    exact not_pending_of_stopAll stops step listed (of_decide_eq_true ready).1
  · next going =>
      obtain rfl := Except.ok.inj stops
      rcases nothing with atHead | atSubmit | none
      · rw [atHead] at going
        exact absurd rfl going
      · unfold submitPhase at starts
        rw [atSubmit] at starts
        exact (Except.ok.inj starts).symm
      · exact idle_of_ready none

/-- Where the first turn starts nothing, nothing is started later. -/
theorem halts_of_startsNothing (idle : ∀ id, states nodes id ≠ .running)
    (nothing : run.StartsNothing nodes) {turns : Nat} {loop : Loop}
    (reached : run.after nodes turns = .ok loop) :
    run.HaltsOnFailure nodes loop.changes ∧ (turns = 0 ∨ run.finished loop = true) := by
  have initially : run.HaltsOnFailure nodes (run.start nodes).changes := by
    intro front change back shape
    exact absurd shape (by simp [start, persist, emit])
  induction turns generalizing loop with
  | zero =>
      obtain rfl := Except.ok.inj reached
      exact ⟨initially, .inl rfl⟩
  | succ turns induction =>
      rcases after_ok idle turns with ⟨before, earlier, steady⟩
      cases stands : run.finished before with
      | true =>
          obtain rfl := Except.ok.inj ((after_succ_of_finished earlier stands).symm.trans reached)
          exact ⟨(induction earlier).1, .inr stands⟩
      | false =>
          rcases (induction earlier).2 with rfl | finished
          · obtain rfl := Except.ok.inj earlier
            have done := (after_succ_of_goesOn earlier stands).symm.trans reached
            rcases iterate_cases done with ⟨stopped, started, stops, starts, settles⟩
            have same := submitPhase_of_startsNothing nothing stops starts
            rcases stopPhase_ok (run.world.turn 0) steady.toSound with
              ⟨_, stops', stoppedSound, _, landed⟩
            obtain rfl := Except.ok.inj (stops.symm.trans stops')
            refine ⟨halts_of_phases initially stops starts (settles_acts settles)
              (fun moved => absurd same moved), .inr ?_⟩
            subst same
            rcases settles with ⟨empty, rfl⟩ | ⟨flying, _⟩
            · exact finished_drainPhase stoppedSound empty
            · exact absurd landed flying
          · rw [finished] at stands
            cases stands

/-! ## Failures before the first turn -/

private theorem changes_of_submit {step : PlanStep} {loop after : Loop}
    (done : run.submit loop step = .ok after) :
    ∃ readied started, after.changes = loop.changes ++ [readied, started] ∧
      readied.stepId = step.id ∧ started.target = .running := by
  rcases submit_cases done with ⟨_, _, rfl, rfl⟩
  refine ⟨⟨step.id, loop.table step.id, .ready⟩,
    ⟨step.id, (loop.toGraphState.move step.id .ready).table step.id, .running⟩, ?_, rfl, rfl⟩
  exact List.append_assoc loop.changes [_] [_]

/-- The first step that is ready is started behind what has failed before. -/
theorem not_halts_of_failure (idle : ∀ id, states nodes id ≠ .running)
    (fails : HasFailure run.graph (states nodes)) (starts : ¬ run.StartsNothing nodes) :
    ∃ loop, run.after nodes 1 = .ok loop ∧ ¬ run.HaltsOnFailure nodes loop.changes := by
  simp only [StartsNothing, not_or, Bool.not_eq_true] at starts
  rcases starts with ⟨atHead, atSubmit, some⟩
  rcases List.exists_cons_of_ne_nil some with ⟨step, rest, ready⟩
  have first : step ∈ GraphState.ready run.graph { node := nodes } := by
    rw [ready]
    exact List.mem_cons_self
  rcases List.mem_filter.mp first with ⟨listed, isReady⟩
  have pending : states nodes step.id = .pending := (of_decide_eq_true isReady).1
  have goesOn : run.finished (run.start nodes) = false := by
    refine Bool.or_eq_false_iff.mpr ⟨?_, rfl⟩
    by_contra done
    rw [Bool.not_eq_false] at done
    have terminal := terminal_of_done done step.id (TaskGraph.mem_ids listed)
    rw [show (run.start nodes).table step.id = .pending from pending] at terminal
    exact absurd terminal (by decide)
  rcases after_ok idle 1 with ⟨loop, reached, _⟩
  refine ⟨loop, reached, ?_⟩
  have done := (after_succ_of_goesOn rfl goesOn).symm.trans reached
  rcases iterate_cases done with ⟨stopped, started, stops, submits, settles⟩
  have same : stopped = run.start nodes := by
    unfold stopPhase at stops
    rw [atHead] at stops
    exact (Except.ok.inj stops).symm
  subst same
  unfold submitPhase submitReady at submits
  rw [atSubmit, show (run.start nodes).toGraphState.ready run.graph = step :: rest from ready]
    at submits
  have room : ¬ run.executor.maxConcurrency ≤ (run.start nodes).inFlight.length :=
    Nat.not_le.mpr run.executor.maxConcurrency_pos
  change run.submitAll (step :: rest) (run.start nodes) = .ok started at submits
  unfold submitAll at submits
  rw [if_neg room] at submits
  rcases except_bind_eq_ok.mp submits with ⟨middle, submitted, submits⟩
  rcases changes_of_submit submitted with ⟨readied, begun, grown, named, begins⟩
  rcases (submitAll_acts submits).changes with ⟨later, started_eq, _⟩
  rcases (settles_acts settles).changes with ⟨settling, settled_eq, _⟩
  have shape : loop.changes = [readied] ++ begun :: (later ++ settling) := by
    rw [settled_eq, started_eq, grown]
    change ([] ++ [readied, begun] ++ later) ++ settling = _
    simp
  intro halts
  apply halts [readied] begun (later ++ settling) shape begins
  rcases fails with ⟨id, member, failed⟩
  refine ⟨id, member, ?_⟩
  have different : id ≠ readied.stepId := by
    rintro rfl
    rw [named, pending] at failed
    rcases failed with failed | failed <;> cases failed
  change Function.update (states nodes) readied.stepId readied.target id = .failed ∨
    Function.update (states nodes) readied.stepId readied.target id = .timedOut
  rwa [Function.update_of_ne different]

/-! ## Restored graphs -/

theorem Begins.idle {graph : TaskGraph} (begins : Begins graph nodes) (id : String) :
    states nodes id ≠ .running := by
  rcases begins with ⟨plan, _, rfl | ⟨readers, snapshot, restored⟩⟩
  · exact idle_freshNodes id
  · exact Readers.restore_idle restored id

/-- Under `FAIL_FAST` every run over a fresh or restored graph halts on failures if and only
if nothing has failed before the first turn, or that turn starts nothing. -/
theorem failFast_halts_iff (run : Execution) (policy : run.executor.failurePolicy = .failFast)
    {nodes : String → GraphNode} (begins : Begins run.graph nodes) :
    (∀ turns loop, run.after nodes turns = .ok loop →
      run.HaltsOnFailure nodes loop.changes) ↔
    ¬ HasFailure run.graph (states nodes) ∨ run.StartsNothing nodes := by
  constructor
  · intro halts
    by_contra neither
    rw [not_or, not_not] at neither
    rcases not_halts_of_failure begins.idle neither.1 neither.2 with ⟨loop, reached, behind⟩
    exact behind (halts 1 loop reached)
  · rintro (unfailed | nothing) turns loop reached
    · exact (halting_after policy begins.idle unfailed reached).halts
    · exact (halts_of_startsNothing begins.idle nothing reached).1

/-! ## A restored failure -/

/-- Two steps that do not depend on each other. -/
def pairPlan : Plan where
  id := "p"
  steps := [{ id := "a" }, { id := "b" }]

def pairGraph : TaskGraph where
  steps := pairPlan.steps
  uniqueIds := by decide
  knownDependencies := by decide

/-- `a` failed and `b` was not started. -/
def savedFailure : Json :=
  .obj [("nodes", .obj [
    ("a", .obj [("state", .str "FAILED")]), ("b", .obj [("state", .str "PENDING")])])]

def restoredFailure : String → GraphNode :=
  Function.update (Function.update (fun _ => {}) "a" { state := .failed }) "b" {}

theorem begins_restoredFailure : Begins pairGraph restoredFailure :=
  ⟨pairPlan, rfl, .inr ⟨Readers.refusing, savedFailure, rfl⟩⟩

/-- Steps without tools, and a token that is never cancelled. -/
def pairRun : Execution where
  executor := defaultExecutor
  taskId := "t"
  graph := pairGraph
  world := { turn := fun _ => {}, reply := fun _ _ => .returned {} }

theorem failFast_halts_iff_pairRun :
    (∀ turns loop, pairRun.after restoredFailure turns = .ok loop →
      pairRun.HaltsOnFailure restoredFailure loop.changes) ↔
    ¬ HasFailure pairRun.graph (states restoredFailure) ∨
      pairRun.StartsNothing restoredFailure :=
  failFast_halts_iff pairRun rfl begins_restoredFailure

/-- `b` is started although `a` is failed. -/
theorem restoredFailure_starts :
    ¬ ∀ (run : Execution) (nodes : String → GraphNode),
      run.executor.failurePolicy = .failFast → Begins run.graph nodes →
      ∀ turns loop, run.after nodes turns = .ok loop →
        run.HaltsOnFailure nodes loop.changes := by
  intro halts
  have fails : HasFailure pairRun.graph (states restoredFailure) :=
    ⟨"a", by decide, .inl (by decide)⟩
  have starts : ¬ pairRun.StartsNothing restoredFailure := by
    rintro (atHead | atSubmit | none)
    · cases atHead
    · cases atSubmit
    · exact absurd (congrArg List.length none) (by decide)
  rcases not_halts_of_failure begins_restoredFailure.idle fails starts with
    ⟨loop, reached, behind⟩
  exact behind (halts pairRun restoredFailure rfl begins_restoredFailure 1 loop reached)

end Execution

end Raphael.Agent.Executor
