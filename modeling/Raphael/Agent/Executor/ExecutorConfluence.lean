import Raphael.Agent.Executor.ExecutorSafety

/-! # The executor is confluent

Without cancellation and timeouts, and continuing independent steps, the node states a
call ends with are the one settled outcome table of the plan's dependencies. Neither
the order of completions nor the number of slots enters it. -/

namespace Raphael.Agent.Executor

open Core Foundation

/-- Every tool of the step returns with success. -/
def Succeeds (reply : String → Nat → ToolReply) (step : PlanStep) : Prop :=
  ∀ position < step.tools.length, ∃ result, reply step.id position = .returned result ∧
    result.success = true

/-- Some step of the graph has this id and succeeds. -/
def TaskGraph.Succeeds (graph : TaskGraph) (reply : String → Nat → ToolReply) (id : String) :
    Prop :=
  ∃ step ∈ graph.steps, step.id = id ∧ Executor.Succeeds reply step

/-- The outcome a terminal state stands for. -/
def outcomeOf : StepState → Outcome
  | .succeeded => .succeeded
  | .failed => .failed
  | _ => .skipped

namespace Execution

variable {run : Execution}

/-- Nothing is cancelled, and nothing times out. -/
structure Quiet (run : Execution) : Prop where
  atHead : ∀ turns, (run.world.turn turns).cancelledAtHead = false
  atSubmit : ∀ turns, (run.world.turn turns).cancelledAtSubmit = false
  atEnd : run.world.cancelledAtEnd = false
  before : ∀ id position, run.world.cancelledBefore id position = false
  after : ∀ id, run.world.cancelledAfter id = false
  deadline : ∀ id, run.world.deadlineReached id = false

/-- Nothing is cancelled, nothing times out, and independent steps go on. -/
structure Calm (run : Execution) : Prop where
  policy : run.executor.failurePolicy = .continueIndependent
  atHead : ∀ turns, (run.world.turn turns).cancelledAtHead = false
  atSubmit : ∀ turns, (run.world.turn turns).cancelledAtSubmit = false
  atEnd : run.world.cancelledAtEnd = false
  before : ∀ id position, run.world.cancelledBefore id position = false
  after : ∀ id, run.world.cancelledAfter id = false
  deadline : ∀ id, run.world.deadlineReached id = false

theorem Calm.quiet (calm : run.Calm) : run.Quiet where
  atHead := calm.atHead
  atSubmit := calm.atSubmit
  atEnd := calm.atEnd
  before := calm.before
  after := calm.after
  deadline := calm.deadline

theorem runTools_ok (quiet : run.Quiet) (step : PlanStep) (tools : List String)
    (position : Nat) (results : List ToolResult) (calls : List ToolCall) :
    (run.runTools step position tools results calls).ok = true ↔
      ∀ place < tools.length, ∃ result,
        run.world.reply step.id (position + place) = .returned result ∧
          result.success = true := by
  induction tools generalizing position results calls with
  | nil => simp [runTools, quiet.after]
  | cons tool rest induction =>
      have shift : ∀ place, position + 1 + place = position + (place + 1) := by omega
      have split : (∀ place < (tool :: rest).length, ∃ result,
          run.world.reply step.id (position + place) = .returned result ∧
            result.success = true) ↔
          (∃ result, run.world.reply step.id position = .returned result ∧
            result.success = true) ∧
          ∀ place < rest.length, ∃ result,
            run.world.reply step.id (position + 1 + place) = .returned result ∧
              result.success = true := by
        constructor
        · intro all
          refine ⟨all 0 (Nat.zero_lt_succ _), fun place inside => ?_⟩
          rw [shift]
          exact all (place + 1) (Nat.succ_lt_succ inside)
        · rintro ⟨first, others⟩ place inside
          cases place with
          | zero => exact first
          | succ place =>
              rw [← shift]
              exact others place (Nat.lt_of_succ_lt_succ inside)
      rw [split]
      simp only [runTools, quiet.before, Bool.false_eq_true, if_false]
      cases reply : run.world.reply step.id position with
      | notBuilt message => simp
      | raised message => simp
      | returned result =>
          by_cases success : result.success = true
          · simp [success, induction]
          · simp [success]

/-- A step's own outcome is the outcome of its tools. -/
theorem runNode_ok (quiet : run.Quiet) (step : PlanStep) :
    (run.runNode step).ok = true ↔ Succeeds run.world.reply step := by
  simpa [runNode, Succeeds] using runTools_ok quiet step step.tools 0 [] []

theorem settlement_of_quiet (quiet : run.Quiet) (step : PlanStep) :
    (run.settlement step).1 = if (run.runNode step).ok then .succeeded else .failed := by
  unfold settlement
  cases ok : (run.runNode step).ok <;> simp [ok, quiet.deadline]

theorem settlement_of_calm (calm : run.Calm) (step : PlanStep) :
    (Succeeds run.world.reply step ∧ (run.settlement step).1 = .succeeded) ∨
      (¬ Succeeds run.world.reply step ∧ (run.settlement step).1 = .failed) := by
  rw [← runNode_ok calm.quiet step, settlement_of_quiet calm.quiet step]
  cases (run.runNode step).ok <;> simp

/-! ## The invariant of a calm call -/

/-- The node states agree with the dependencies and with the steps' own outcomes. -/
structure Consistent (run : Execution) (table : StateTable) : Prop where
  shape : ∀ id, table id = .pending ∨ table id = .running ∨ table id = .succeeded ∨
    table id = .failed ∨ table id = .skipped
  own : ∀ step ∈ run.graph.steps,
    (table step.id = .succeeded → Succeeds run.world.reply step) ∧
      (table step.id = .failed → ¬ Succeeds run.world.reply step)
  behind : ∀ id dependency, run.graph.DependsOn id dependency →
    table id = .running ∨ table id = .succeeded ∨ table id = .failed →
      table dependency = .succeeded
  blocked : ∀ id, table id = .skipped →
    ∃ dependency, run.graph.DependsOn id dependency ∧ table dependency ∈ nonSuccessTerminal

namespace Consistent

variable {table next : StateTable}

theorem fresh (run : Execution) : Consistent run (states freshNodes) where
  shape := fun _ => .inl rfl
  own := by simp [states, freshNodes]
  behind := by
    rintro id dependency _ (impossible | impossible | impossible) <;> cases impossible
  blocked := by simp [states, freshNodes]

theorem submit (consistent : Consistent run table)
    (moves : ∀ id, next id = table id ∨
      (next id = .running ∧ table id = .pending ∧
        ∀ dependency, run.graph.DependsOn id dependency → table dependency = .succeeded)) :
    Consistent run next where
  shape := by
    intro id
    rcases moves id with kept | ⟨runs, _⟩
    · rw [kept]
      exact consistent.shape id
    · exact .inr (.inl runs)
  own := by
    intro step listed
    rcases moves step.id with kept | ⟨runs, _⟩
    · rw [kept]
      exact consistent.own step listed
    · simp [runs]
  behind := by
    intro id dependency depends executed
    have succeeded : table dependency = .succeeded := by
      rcases moves id with kept | ⟨_, _, behind⟩
      · rw [kept] at executed
        exact consistent.behind id dependency depends executed
      · exact behind dependency depends
    rcases moves dependency with kept | ⟨_, pending, _⟩
    · rw [kept, succeeded]
    · exact absurd (pending.symm.trans succeeded) (by decide)
  blocked := by
    intro id skipped
    rcases moves id with kept | ⟨runs, _⟩
    · rw [kept] at skipped
      rcases consistent.blocked id skipped with ⟨dependency, depends, ended⟩
      refine ⟨dependency, depends, ?_⟩
      rcases moves dependency with kept' | ⟨_, pending, _⟩
      · rwa [kept']
      · simp [pending, nonSuccessTerminal] at ended
    · exact absurd (runs.symm.trans skipped) (by decide)

theorem collect (calm : run.Calm) (consistent : Consistent run table)
    (collected : Collected run table next) : Consistent run next := by
  -- What was collected has its own outcome; everything else is as it was.
  have effect : ∀ id, next id = table id ∨
      (table id = .running ∧ ∃ step ∈ run.graph.steps, step.id = id ∧
        ((Succeeds run.world.reply step ∧ next id = .succeeded) ∨
          (¬ Succeeds run.world.reply step ∧ next id = .failed))) := by
    intro id
    rcases collected id with kept | ⟨runs, step, listed, same, settled⟩
    · exact .inl kept
    · refine .inr ⟨runs, step, listed, same, ?_⟩
      rw [settled]
      exact settlement_of_calm calm step
  have kept : ∀ id, table id ≠ .running → next id = table id := by
    intro id grounded
    exact (effect id).resolve_right fun moved => grounded moved.1
  refine ⟨?_, ?_, ?_, ?_⟩
  · intro id
    rcases effect id with same | ⟨_, step, _, _, ⟨_, ended⟩ | ⟨_, ended⟩⟩
    · rw [same]
      exact consistent.shape id
    · exact .inr (.inr (.inl ended))
    · exact .inr (.inr (.inr (.inl ended)))
  · intro step listed
    rcases effect step.id with same | ⟨_, other, otherListed, same, ended⟩
    · rw [same]
      exact consistent.own step listed
    · obtain rfl := TaskGraph.step_unique otherListed listed same
      rcases ended with ⟨holds, ended⟩ | ⟨fails, ended⟩
      · exact ⟨fun _ => holds, fun failed => absurd (ended.symm.trans failed) (by decide)⟩
      · exact ⟨fun succeeded => absurd (ended.symm.trans succeeded) (by decide), fun _ => fails⟩
  · intro id dependency depends executed
    have succeeded : table dependency = .succeeded := by
      rcases effect id with same | ⟨runs, _⟩
      · rw [same] at executed
        exact consistent.behind id dependency depends executed
      · exact consistent.behind id dependency depends (.inl runs)
    rw [kept dependency (by simp [succeeded]), succeeded]
  · intro id skipped
    have before : table id = .skipped := by
      rcases effect id with same | ⟨_, step, _, _, ⟨_, ended⟩ | ⟨_, ended⟩⟩
      · rw [← same, skipped]
      · exact absurd (ended.symm.trans skipped) (by decide)
      · exact absurd (ended.symm.trans skipped) (by decide)
    rcases consistent.blocked id before with ⟨dependency, depends, ended⟩
    refine ⟨dependency, depends, ?_⟩
    rwa [kept dependency fun runs => by simp [runs, nonSuccessTerminal] at ended]

theorem skip (consistent : Consistent run table) (behind : SkippedBehind run table next) :
    Consistent run next := by
  have kept : ∀ id, table id ≠ .pending → next id = table id := by
    intro id moved
    exact (behind id).resolve_right fun gone => moved gone.2.1
  refine ⟨?_, ?_, ?_, ?_⟩
  · intro id
    rcases behind id with same | ⟨gone, _⟩
    · rw [same]
      exact consistent.shape id
    · exact .inr (.inr (.inr (.inr gone)))
  · intro step listed
    rcases behind step.id with same | ⟨gone, _⟩
    · rw [same]
      exact consistent.own step listed
    · simp [gone]
  · intro id dependency depends executed
    have succeeded : table dependency = .succeeded := by
      rcases behind id with same | ⟨gone, _⟩
      · rw [same] at executed
        exact consistent.behind id dependency depends executed
      · simp [gone] at executed
    rw [kept dependency (by simp [succeeded]), succeeded]
  · intro id skipped
    rcases behind id with same | ⟨_, _, dependency, depends, ended⟩
    · rcases consistent.blocked id (same ▸ skipped) with ⟨dependency, depends, ended⟩
      refine ⟨dependency, depends, ?_⟩
      rwa [kept dependency fun pending => by simp [pending, nonSuccessTerminal] at ended]
    · exact ⟨dependency, depends, ended⟩

/-- Draining is skipping where no step is ready or in flight: what a waiting step waits
for is then skipped as well, or has ended without success. -/
theorem drain (consistent : Consistent run table) (drained : Drained run table next)
    (grounded : ∀ id, table id ≠ .running)
    (unready : ∀ step ∈ run.graph.steps, table step.id = .pending →
      ∃ dependency ∈ step.dependencies, table dependency ≠ .succeeded) :
    Consistent run next := by
  have pending_of_waiting : ∀ id, Waiting (table id) → table id = .pending := by
    intro id waits
    rcases waits with pending | ready
    · exact pending
    · rcases consistent.shape id with other | other | other | other | other <;>
        exact absurd (ready.symm.trans other) (by decide)
  have ended : ∀ id ∈ run.graph.ids, next id ≠ .succeeded → next id ∈ nonSuccessTerminal := by
    intro id listed unsuccessful
    rcases drained id with ⟨_, gone, _⟩ | ⟨same, moved⟩
    · simp [gone, nonSuccessTerminal]
    · have open' := moved listed
      have still := grounded id
      rw [same] at unsuccessful ⊢
      rcases consistent.shape id with other | other | other | other | other <;>
        simp_all [nonSuccessTerminal, Waiting]
  apply consistent.skip
  intro id
  rcases drained id with ⟨listed, gone, waits⟩ | ⟨same, _⟩
  · have pending := pending_of_waiting id waits
    rcases TaskGraph.exists_step listed with ⟨step, member, rfl⟩
    rcases unready step member pending with ⟨dependency, named, unsuccessful⟩
    refine .inr ⟨gone, pending, dependency, (TaskGraph.dependsOn_iff member).mpr named, ?_⟩
    apply ended dependency (run.graph.knownDependencies step member dependency named)
    rcases drained dependency with ⟨_, gone', _⟩ | ⟨same, _⟩
    · simp [gone']
    · rwa [same]
  · exact .inl same

end Consistent

theorem unready_of_ready_eq_nil {graph : TaskGraph} {state : GraphState}
    (none : state.ready graph = []) :
    ∀ step ∈ graph.steps, state.table step.id = .pending →
      ∃ dependency ∈ step.dependencies, state.table dependency ≠ .succeeded := by
  intro step listed pending
  by_contra all
  push Not at all
  have inside : step ∈ state.ready graph :=
    List.mem_filter.mpr ⟨listed, decide_eq_true ⟨pending, all⟩⟩
  simp [none] at inside

/-- One turn of a calm call keeps the states consistent, and does not halt. -/
theorem iterate_consistent (calm : run.Calm) {turn : Turn} {nodes : String → GraphNode}
    {loop next : Loop} (atHead : turn.cancelledAtHead = false)
    (atSubmit : turn.cancelledAtSubmit = false) (steady : Steady run nodes loop)
    (goesOn : run.finished loop = false) (going : loop.halting = false)
    (consistent : Consistent run loop.table) (done : run.iterate turn loop = .ok next) :
    Consistent run next.table ∧ next.halting = false := by
  have running : loop.broke = false := by
    simp only [finished, Bool.or_eq_false_iff] at goesOn
    exact goesOn.2
  have stopped : run.stopPhase turn loop = .ok loop := by simp [stopPhase, atHead, going]
  rcases submitReady_ok steady.toSound with
    ⟨started, submitted_eq, sound, extends_, idleSubmit, moves⟩
  have submitted : run.submitPhase turn loop = .ok started := by
    simpa [submitPhase, atSubmit, going] using submitted_eq
  have consistent' := consistent.submit moves
  have going' := extends_.halting.trans going
  have running' := extends_.broke.trans running
  simp only [iterate, stopped, submitted, bind, Except.bind] at done
  split at done
  · rename_i empty
    cases done
    rcases drainPhase_ok sound running' empty with ⟨_, _, _, _, halting, same | drained⟩
    · exact ⟨same ▸ consistent', halting.trans going'⟩
    · refine ⟨consistent'.drain drained (fun id runs => ?_) ?_, halting.trans going'⟩
      · have flies := (sound.flying id).mpr runs
        simp [empty] at flies
      · rcases idleSubmit empty with ⟨none, rfl⟩
        exact unready_of_ready_eq_nil none
  · rcases collectPhase_ok turn sound running' with
      ⟨next', collected_eq, _, _, _, _, halting, middle, collected, skipped⟩
    cases collected_eq.symm.trans done
    exact ⟨(consistent'.collect calm collected).skip skipped,
      (halting calm.policy).trans going'⟩

theorem after_consistent (calm : run.Calm) (turns : Nat) :
    ∀ loop, run.after freshNodes turns = .ok loop →
      Consistent run loop.table ∧ loop.halting = false := by
  induction turns with
  | zero =>
      intro loop reached
      cases reached
      exact ⟨.fresh run, rfl⟩
  | succ turns induction =>
      intro loop reached
      rcases @after_ok run freshNodes idle_freshNodes turns with ⟨before, reached', steady⟩
      rcases induction before reached' with ⟨consistent, going⟩
      cases stands : run.finished before with
      | true =>
          cases (after_succ_of_finished reached' stands).symm.trans reached
          exact ⟨consistent, going⟩
      | false =>
          exact iterate_consistent calm (calm.atHead turns) (calm.atSubmit turns) steady stands
            going consistent ((after_succ_of_goesOn reached' stands).symm.trans reached)

/-! ## The final states -/

/-- The states a calm call ends with are a settled outcome table. -/
theorem settled_of_consistent {table : StateTable} (consistent : Consistent run table)
    (terminal : ∀ id ∈ run.graph.ids, table id ∈ terminalStepStates) :
    Settled {id | id ∈ run.graph.ids} run.graph.DependsOn
      (run.graph.Succeeds run.world.reply) (fun id => outcomeOf (table id)) where
  ran := by
    intro id listed all
    rcases TaskGraph.exists_step listed with ⟨step, member, rfl⟩
    have own := consistent.own step member
    have succeeds_iff : run.graph.Succeeds run.world.reply step.id ↔
        Executor.Succeeds run.world.reply step := by
      constructor
      · rintro ⟨other, otherMember, same, holds⟩
        rwa [← TaskGraph.step_unique otherMember member same]
      · exact fun holds => ⟨step, member, rfl, holds⟩
    rw [succeeds_iff]
    have end_ := terminal step.id listed
    rcases consistent.shape step.id with state | state | state | state | state
    · simp [state, terminalStepStates] at end_
    · simp [state, terminalStepStates] at end_
    · exact .inl ⟨own.1 state, by simp [state, outcomeOf]⟩
    · exact .inr ⟨own.2 state, by simp [state, outcomeOf]⟩
    · rcases consistent.blocked step.id state with ⟨dependency, depends, ended⟩
      have succeeded := all dependency depends
      cases state' : table dependency <;>
        simp_all [outcomeOf, nonSuccessTerminal]
  skipped := by
    intro id listed dependency depends unsuccessful
    have end_ := terminal id listed
    have blocked : table dependency ≠ .succeeded := fun succeeded =>
      unsuccessful (by simp [succeeded, outcomeOf])
    rcases consistent.shape id with state | state | state | state | state
    · simp [state, terminalStepStates] at end_
    · simp [state, terminalStepStates] at end_
    · exact absurd (consistent.behind id dependency depends (.inr (.inl state))) blocked
    · exact absurd (consistent.behind id dependency depends (.inr (.inr state))) blocked
    · simp [state, outcomeOf]

/-- A terminal state of a calm call is read off its outcome. -/
theorem state_of_outcome {table : StateTable} (consistent : Consistent run table) {id : String}
    (terminal : table id ∈ terminalStepStates) :
    (table id = .succeeded ↔ outcomeOf (table id) = .succeeded) ∧
      (table id = .failed ↔ outcomeOf (table id) = .failed) ∧
      (table id = .skipped ↔ outcomeOf (table id) = .skipped) := by
  rcases consistent.shape id with state | state | state | state | state <;>
    simp_all [terminalStepStates, outcomeOf]

/-- The final state of every step: skipped behind a failure, and otherwise its own. -/
structure FinalStates (graph : TaskGraph) (reply : String → Nat → ToolReply)
    (final : StateTable) : Prop where
  skipped_iff : ∀ id ∈ graph.ids, final id = .skipped ↔
    ∃ dependency, Relation.TransGen graph.DependsOn id dependency ∧ final dependency = .failed
  own : ∀ step ∈ graph.steps, final step.id ≠ .skipped →
    (Succeeds reply step ∧ final step.id = .succeeded) ∨
      (¬ Succeeds reply step ∧ final step.id = .failed)

/-- Where a calm call stands still, every step has its final state. -/
theorem finalStates_of_finished (acyclic : run.graph.Acyclic) (calm : run.Calm) {turns : Nat}
    {loop : Loop} (reached : run.after freshNodes turns = .ok loop)
    (stands : run.finished loop = true) :
    FinalStates run.graph run.world.reply loop.table := by
  have steady := steady_of_after idle_freshNodes reached
  have consistent := (after_consistent calm turns loop reached).1
  have terminal := terminal_of_done (done_of_finished steady stands)
  have settled := settled_of_consistent consistent terminal
  refine ⟨?_, ?_⟩
  · intro id listed
    rw [(state_of_outcome consistent (terminal id listed)).2.2,
      settled.skipped_iff acyclic.wellOrdered listed]
    refine exists_congr fun dependency => and_congr_right fun path => ?_
    have inside : dependency ∈ run.graph.ids := by
      rcases Relation.TransGen.tail'_iff.mp path with ⟨_, _, last⟩
      exact TaskGraph.mem_ids_of_dependsOn last
    exact (state_of_outcome consistent (terminal dependency inside)).2.1.symm
  · intro step listed ran
    have own := consistent.own step listed
    have end_ := terminal step.id (TaskGraph.mem_ids listed)
    rcases consistent.shape step.id with state | state | state | state | state
    · simp [state, terminalStepStates] at end_
    · simp [state, terminalStepStates] at end_
    · exact .inl ⟨own.1 state, state⟩
    · exact .inr ⟨own.2 state, state⟩
    · exact absurd state ran

/-- A call that succeeds everywhere is the only one that is `COMPLETED`. -/
theorem overallStatus_eq_completed {loop : Loop} (open_ : run.world.cancelledAtEnd = false) :
    run.overallStatus loop = .completed ↔ ∀ id ∈ run.graph.ids, loop.table id = .succeeded := by
  have all : (run.graph.steps.all fun step => decide (loop.table step.id = .succeeded)) = true ↔
      ∀ id ∈ run.graph.ids, loop.table id = .succeeded := by
    simp [TaskGraph.ids]
  rw [← all]
  unfold overallStatus
  simp only [open_, Bool.false_eq_true, if_false]
  split <;> simp_all

end Execution

end Raphael.Agent.Executor
