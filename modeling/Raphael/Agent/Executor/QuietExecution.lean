import Mathlib.Data.List.Range
import Raphael.Agent.Executor.ExecutorConfluence
import Raphael.Agent.Executor.LoopPhases

/-! # Executions that nothing disturbs

Without cancellation and timeouts, a call that does not complete has a step that failed,
whatever the failure policy. What it reports of the tools is what the threads of the
steps that ran have returned. -/

namespace Raphael.Agent.Executor

open Core Foundation

/-! ## What a state keeps of the tools -/

namespace GraphState

def toolResults (state : GraphState) (id : String) : List ToolResult :=
  (state.node id).toolResults

@[simp] theorem toolResults_move (state : GraphState) (id : String) (target : StepState) :
    (state.move id target).toolResults = state.toolResults := by
  funext other
  by_cases same : other = id
  · subst same
    simp [toolResults, move]
  · simp [toolResults, move, Function.update_of_ne same]

theorem toolResults_amend (state : GraphState) (id : String)
    (change : GraphNode → GraphNode) :
    (state.amend id change).toolResults =
      Function.update state.toolResults id (change (state.node id)).toolResults := by
  funext other
  by_cases same : other = id
  · subst same
    simp [toolResults, amend]
  · simp [toolResults, amend, Function.update_of_ne same]

theorem toolResults_amend_of_kept (state : GraphState) (id : String)
    (change : GraphNode → GraphNode)
    (kept : (change (state.node id)).toolResults = (state.node id).toolResults) :
    (state.amend id change).toolResults = state.toolResults := by
  rw [toolResults_amend, kept]
  exact Function.update_eq_self id state.toolResults

end GraphState

namespace Execution

variable {run : Execution} {answer : String → Nat → ToolResult} {step : PlanStep}

/-! ## A step's thread -/

/-- Every tool call gets a tool result. -/
def Answered (run : Execution) (answer : String → Nat → ToolResult) : Prop :=
  ∀ id position, run.world.reply id position = .returned (answer id position)

/-- How many calls the thread of a step makes. -/
def made (run : Execution) (step : PlanStep) : Nat := (run.runNode step).calls.length

/-- A thread makes its calls up to the first that fails. -/
structure Made (answer : String → Nat → ToolResult) (step : PlanStep) (position count : Nat)
    (results : List ToolResult) (returned : NodeReturn) (made : Nat) : Prop where
  within : made ≤ count
  results : returned.results =
    results ++ (List.range made).map fun place => answer step.id (position + place)
  succeeded : returned.ok = true → made = count ∧
    ∀ place < made, (answer step.id (position + place)).success = true
  failed : returned.ok = false → ∃ last, made = last + 1 ∧
    (answer step.id (position + last)).success = false

theorem runTools_made (quiet : run.Quiet) (answered : run.Answered answer)
    (step : PlanStep) (tools : List String) (position : Nat) (results : List ToolResult)
    (calls : List ToolCall) :
    ∃ made, (run.runTools step position tools results calls).calls.length =
        calls.length + made ∧
      Made answer step position tools.length results
        (run.runTools step position tools results calls) made := by
  induction tools generalizing position results calls with
  | nil =>
      refine ⟨0, ?_, le_rfl, ?_, ?_, ?_⟩
      · simp [runTools, quiet.after]
      · simp [runTools, quiet.after]
      · exact fun _ => ⟨rfl, fun _ none => absurd none (Nat.not_lt_zero _)⟩
      · simp [runTools, quiet.after]
  | cons tool rest induction =>
      have replied : run.world.reply step.id position =
          .returned (answer step.id position) := answered step.id position
      unfold runTools
      simp only [quiet.before, replied, Bool.false_eq_true, if_false]
      cases success : (answer step.id position).success with
      | true =>
          rw [if_pos rfl]
          rcases induction (position + 1) (results ++ [answer step.id position])
            (calls ++ [{
              id := run.world.callId step.id position
              taskId := run.taskId
              tool
              arguments := run.mergedArguments step }]) with
            ⟨later, length, ran⟩
          have shift : ∀ place, position + 1 + place = position + (place + 1) := by omega
          refine ⟨later + 1, ?_, Nat.succ_le_succ ran.within, ?_, ?_, ?_⟩
          · rw [length, List.length_append, List.length_singleton]
            omega
          · rw [ran.results, List.range_succ_eq_map]
            simp [shift, Nat.succ_eq_add_one]
          · intro ok
            rcases ran.succeeded ok with ⟨all, successes⟩
            refine ⟨by rw [all]; rfl, fun place inside => ?_⟩
            cases place with
            | zero => exact success
            | succ place =>
                rw [← shift]
                exact successes place (Nat.lt_of_succ_lt_succ inside)
          · intro notOk
            rcases ran.failed notOk with ⟨last, same, fails⟩
            exact ⟨last + 1, congrArg (· + 1) same, by rwa [← shift]⟩
      | false =>
          simp only [Bool.false_eq_true, if_false]
          refine ⟨1, by simp, Nat.succ_le_succ (Nat.zero_le _), by simp, ?_, ?_⟩
          · exact fun impossible => absurd impossible Bool.false_ne_true
          · exact fun _ => ⟨0, rfl, success⟩

theorem runNode_made (quiet : run.Quiet) (answered : run.Answered answer) (step : PlanStep) :
    Made answer step 0 step.tools.length [] (run.runNode step) (run.made step) := by
  rcases runTools_made quiet answered step step.tools 0 [] [] with ⟨made, length, ran⟩
  have same : run.made step = made := length.trans (Nat.zero_add made)
  rw [same]
  exact ran

/-! ## The invariant of the loop -/

/-- Some step of the graph has failed. -/
def Failing (run : Execution) (table : StateTable) : Prop :=
  ∃ step ∈ run.graph.steps, table step.id = .failed

/-- The states of a step whose thread was collected. -/
def HasReturned (state : StepState) : Prop := state = .succeeded ∨ state = .failed

instance (state : StepState) : Decidable (HasReturned state) :=
  inferInstanceAs (Decidable (_ ∨ _))

/-- What the node states say of the threads, and of each other. -/
structure Told (run : Execution) (state : GraphState) : Prop where
  shape : ∀ id, state.table id ≠ .ready ∧ state.table id ≠ .timedOut
  failed : ∀ step ∈ run.graph.steps, state.table step.id = .failed →
    (run.runNode step).ok = false
  /-- No step is left out but for a failure. -/
  blamed : ∀ id, state.table id = .cancelled ∨ state.table id = .skipped →
    run.Failing state.table
  recorded : ∀ step ∈ run.graph.steps, state.toolResults step.id =
    if HasReturned (state.table step.id) then (run.runNode step).results else []

variable {state next : GraphState} {id : String} {target : StepState}

theorem Failing.update {table : StateTable} (failing : run.Failing table)
    (grounded : table id ≠ .failed) : run.Failing (Function.update table id target) := by
  rcases failing with ⟨step, listed, failed⟩
  have different : step.id ≠ id := fun same => grounded (same ▸ failed)
  exact ⟨step, listed, (Function.update_of_ne different _ _).trans failed⟩

theorem told_freshNodes (run : Execution) : Told run { node := freshNodes } where
  shape := fun _ => ⟨nofun, nofun⟩
  failed := fun _ _ impossible => by cases impossible
  blamed := fun _ impossible => absurd impossible (by simp [GraphState.table, freshNodes])
  recorded := fun _ _ => rfl

/-- A step that has not failed takes another state. -/
theorem Told.change (told : Told run state) (results : List ToolResult)
    (table : next.table = Function.update state.table id target)
    (written : next.toolResults = Function.update state.toolResults id results)
    (grounded : state.table id ≠ .failed) (shape : target ≠ .ready ∧ target ≠ .timedOut)
    (failed : target = .failed → ∀ step ∈ run.graph.steps, step.id = id →
      (run.runNode step).ok = false)
    (blamed : target = .cancelled ∨ target = .skipped → run.Failing state.table)
    (recorded : ∀ step ∈ run.graph.steps, step.id = id →
      results = if HasReturned target then (run.runNode step).results else []) :
    Told run next where
  shape := by
    intro other
    rw [table]
    by_cases same : other = id
    · subst same
      rwa [Function.update_self]
    · rw [Function.update_of_ne same]
      exact told.shape other
  failed := by
    intro step listed ended
    rw [table] at ended
    by_cases same : step.id = id
    · rw [same, Function.update_self] at ended
      exact failed ended step listed same
    · rw [Function.update_of_ne same] at ended
      exact told.failed step listed ended
  blamed := by
    intro other ended
    rw [table] at ended ⊢
    refine Failing.update ?_ grounded
    by_cases same : other = id
    · rw [same, Function.update_self] at ended
      exact blamed ended
    · rw [Function.update_of_ne same] at ended
      exact told.blamed other ended
  recorded := by
    intro step listed
    rw [table, written]
    by_cases same : step.id = id
    · rw [same, Function.update_self, Function.update_self]
      exact recorded step listed same
    · rw [Function.update_of_ne same, Function.update_of_ne same]
      exact told.recorded step listed

/-- A step whose thread was not collected has no tool results. -/
theorem Told.results_eq_nil (told : Told run state) (listed : step ∈ run.graph.steps)
    (waits : ¬HasReturned (state.table step.id)) : state.toolResults step.id = [] := by
  rw [told.recorded step listed, if_neg waits]

theorem not_hasReturned_of_waiting {state : StepState} (waits : Waiting state) :
    ¬HasReturned state ∧ state ≠ .failed := by
  rcases waits with rfl | rfl
  · decide
  · decide

/-- A step that waits is left out, for a failure. -/
theorem Told.leave (told : Told run state) {error : String}
    (waits : Waiting (state.table id)) (left : target = .cancelled ∨ target = .skipped)
    (failing : run.Failing state.table) :
    Told run ((state.move id target).amend id fun node => { node with error }) ∧
      run.Failing ((state.move id target).amend id fun node => { node with error }).table := by
  rcases not_hasReturned_of_waiting waits with ⟨uncollected, grounded⟩
  have table : ((state.move id target).amend id fun node => { node with error }).table =
      Function.update state.table id target := by
    rw [GraphState.table_amend _ _ _ rfl, GraphState.table_move]
  refine ⟨?_, table ▸ failing.update grounded⟩
  apply told.change (state.toolResults id)
  · exact table
  · rw [GraphState.toolResults_amend_of_kept _ _ _ rfl, GraphState.toolResults_move,
      Function.update_eq_self]
  · exact grounded
  · rcases left with rfl | rfl <;> decide
  · rcases left with rfl | rfl <;> exact fun impossible => by cases impossible
  · exact fun _ => failing
  · rintro step listed rfl
    rw [told.results_eq_nil listed uncollected]
    rcases left with rfl | rfl <;> rfl

/-- A step is started. -/
theorem Told.start (told : Told run state) {change : GraphNode → GraphNode}
    (pending : state.table id = .pending)
    (state_eq : ∀ node, (change node).state = node.state)
    (kept : ∀ node, (change node).toolResults = node.toolResults) :
    Told run (((state.move id .ready).move id .running).amend id change) := by
  apply told.change (state.toolResults id)
  · rw [GraphState.table_amend _ _ _ (state_eq _), GraphState.table_move,
      GraphState.table_move, Function.update_idem]
  · rw [GraphState.toolResults_amend_of_kept _ _ _ (kept _), GraphState.toolResults_move,
      GraphState.toolResults_move, Function.update_eq_self]
  · rw [pending]
    decide
  · decide
  · exact fun impossible => by cases impossible
  · exact fun impossible => absurd impossible (by decide)
  · rintro step listed rfl
    rw [told.results_eq_nil listed (by rw [pending]; decide)]
    rfl

/-- The thread of a running step is collected. -/
theorem Told.collect (told : Told run state) (quiet : run.Quiet)
    (listed : step ∈ run.graph.steps) (runs : state.table step.id = .running)
    (change : GraphNode → GraphNode) (state_eq : ∀ node, (change node).state = node.state)
    (kept : ∀ node, (change node).toolResults = node.toolResults) :
    Told run (((state.amend step.id (run.record (run.runNode step) step.id)).move step.id
      (run.settlement step).1).amend step.id change) := by
  have mine : ∀ other ∈ run.graph.steps, other.id = step.id → other = step :=
    fun other member same => TaskGraph.step_unique member listed same
  have recorded : (state.amend step.id (run.record (run.runNode step) step.id)).table =
      state.table := GraphState.table_amend _ _ _ rfl
  rw [settlement_of_quiet quiet]
  apply told.change (run.runNode step).results
  · rw [GraphState.table_amend _ _ _ (state_eq _), GraphState.table_move, recorded]
  · rw [GraphState.toolResults_amend_of_kept _ _ _ (kept _), GraphState.toolResults_move,
      GraphState.toolResults_amend]
    rfl
  · rw [runs]
    decide
  · cases (run.runNode step).ok <;> decide
  · intro failed other member same
    rw [mine other member same]
    cases ok : (run.runNode step).ok with
    | false => rfl
    | true =>
        rw [ok] at failed
        cases failed
  · cases (run.runNode step).ok <;> exact fun impossible => absurd impossible (by decide)
  · intro other member same
    rw [mine other member same]
    cases (run.runNode step).ok <;> rfl

/-! ## The phases -/

variable {loop after : Loop} {turn : Turn}

theorem stop_told (told : Told run loop.toGraphState) (failing : run.Failing loop.table)
    (done : run.stop turn loop step = .ok after) :
    Told run after.toGraphState ∧ run.Failing after.table := by
  rcases stop_cases done with ⟨_, rfl⟩ | ⟨waits, rfl⟩
  · exact ⟨told, failing⟩
  · exact told.leave waits (.inl rfl) failing

theorem stopUnstarted_told (told : Told run loop.toGraphState)
    (failing : run.Failing loop.table) (done : run.stopUnstarted turn loop = .ok after) :
    Told run after.toGraphState ∧ run.Failing after.table := by
  apply foldlM_keeps (fun loop => Told run loop.toGraphState ∧ run.Failing loop.table) _
    ⟨told, failing⟩ done
  intro step _ middle next kept stopped
  exact stop_told kept.1 kept.2 stopped

theorem submit_told (told : Told run loop.toGraphState)
    (done : run.submit loop step = .ok after) : Told run after.toGraphState := by
  rcases submit_cases done with ⟨pending, _, rfl, rfl⟩
  exact told.start pending (fun _ => rfl) fun _ => rfl

theorem submitAll_told {steps : List PlanStep} (told : Told run loop.toGraphState)
    (done : run.submitAll steps loop = .ok after) : Told run after.toGraphState :=
  submitAll_keeps (fun next => Told run next.toGraphState)
    (fun _ _ _ told submitted => submit_told told submitted) told done

theorem settle_told (quiet : run.Quiet) (told : Told run loop.toGraphState)
    (listed : step ∈ run.graph.steps) (done : run.settle loop step = .ok after) :
    Told run after.toGraphState := by
  rcases settle_cases done with rfl | ⟨running, target, error, _, _, settled, rfl⟩
  · exact told
  · have collected := @Told.collect run step loop.toGraphState told quiet listed running
    rw [settled] at collected
    exact collected
      (fun node => { node with error := if target = .succeeded then node.error else error })
      (fun _ => rfl) fun _ => rfl

theorem collectCompleted_told (quiet : run.Quiet) (told : Told run loop.toGraphState)
    (done : run.collectCompleted turn loop = .ok after) : Told run after.toGraphState :=
  collectCompleted_keeps (fun next => Told run next.toGraphState)
    (fun _ listed _ _ told settled => settle_told quiet told listed settled) told done

/-- A dependency that ended without success has failed, or was left out for a failure. -/
theorem Told.failing_of_ended (told : Told run state) (listed : step ∈ run.graph.steps)
    {bad : String} (named : bad ∈ step.dependencies)
    (ended : state.table bad ∈ nonSuccessTerminal) : run.Failing state.table := by
  have shape := told.shape bad
  have blamed := told.blamed bad
  rcases TaskGraph.exists_step (run.graph.knownDependencies step listed bad named)
    with ⟨other, member, rfl⟩
  cases atBad : state.table other.id with
  | failed => exact ⟨other, member, atBad⟩
  | cancelled => exact blamed (.inl atBad)
  | skipped => exact blamed (.inr atBad)
  | timedOut => exact absurd atBad shape.2
  | pending => simp [atBad, nonSuccessTerminal] at ended
  | ready => simp [atBad, nonSuccessTerminal] at ended
  | running => simp [atBad, nonSuccessTerminal] at ended
  | succeeded => simp [atBad, nonSuccessTerminal] at ended

theorem skipStep_told {skipped more : List String} (told : Told run state)
    (listed : step ∈ run.graph.steps)
    (done : GraphState.skipUnsatisfiable (state, skipped) step = .ok (next, more)) :
    Told run next := by
  rcases skipStep_cases done with ⟨rfl, _⟩ | ⟨waits, _, bad, named, ended, _, rfl⟩
  · exact told
  · exact (told.leave (.inl waits) (.inr rfl) (told.failing_of_ended listed named ended)).1

theorem skipUnsatisfiable_told (told : Told run loop.toGraphState)
    (done : run.skipUnsatisfiable loop = .ok after) : Told run after.toGraphState := by
  rcases skipUnsatisfiable_cases done with ⟨state, skipped, _, marked, _, rfl⟩
  apply foldlM_keeps (fun answer : GraphState × List String => Told run answer.1) _ told marked
  rintro step listed ⟨state, skipped⟩ ⟨next, more⟩ told skips
  exact skipStep_told told listed skips

theorem drain_told (told : Told run loop.toGraphState) (failing : run.Failing loop.table)
    (waits : Waiting (loop.table step.id)) :
    Told run (run.drain loop step).toGraphState ∧ run.Failing (run.drain loop step).table := by
  unfold drain
  rw [Loop.transition_of_legal (legal_of_waiting waits (.inl rfl)).1]
  exact told.leave waits (.inr rfl) failing

theorem drainAll_told {steps : List PlanStep} (told : Told run loop.toGraphState)
    (failing : run.Failing loop.table) (sound : Sound run freshNodes loop)
    (member : ∀ step ∈ steps, step ∈ run.graph.steps)
    (distinct : (steps.map (·.id)).Nodup)
    (waits : ∀ step ∈ steps, Waiting (loop.table step.id)) :
    Told run (steps.foldl run.drain loop).toGraphState ∧
      run.Failing (steps.foldl run.drain loop).table := by
  induction steps generalizing loop with
  | nil => exact ⟨told, failing⟩
  | cons step rest induction =>
      rw [List.map_cons, List.nodup_cons] at distinct
      have waiting := waits step List.mem_cons_self
      rcases drain_told told failing waiting with ⟨told', failing'⟩
      rcases drain_ok sound (member step List.mem_cons_self) waiting with
        ⟨sound', _, _, table, _⟩
      apply induction told' failing' sound'
        (fun other inside => member other (List.mem_cons_of_mem _ inside)) distinct.2
      intro other inside
      have different : other.id ≠ step.id := fun same =>
        distinct.1 (same ▸ List.mem_map_of_mem inside)
      rw [table, Function.update_of_ne different]
      exact waits other (List.mem_cons_of_mem _ inside)

/-- Where no step runs or is ready, what a waiting step waits for has failed in the end. -/
theorem Told.failing_of_waiting (told : Told run state) (acyclic : run.graph.Acyclic)
    (grounded : ∀ id, state.table id ≠ .running)
    (unready : ∀ step ∈ run.graph.steps, state.table step.id = .pending →
      ∃ dependency ∈ step.dependencies, state.table dependency ≠ .succeeded)
    (listed : step ∈ run.graph.steps) (pending : state.table step.id = .pending) :
    run.Failing state.table := by
  rcases acyclic with ⟨rank, lower⟩
  -- Induction on the rank of the step that waits.
  generalize height : rank step.id = level
  induction level using Nat.strongRecOn generalizing step with
  | ind level induction =>
      rcases unready step listed pending with ⟨dependency, named, unsuccessful⟩
      have known := run.graph.knownDependencies step listed dependency named
      rcases TaskGraph.exists_step known with ⟨other, member, rfl⟩
      have below := lower step.id other.id ((TaskGraph.dependsOn_iff listed).mpr named)
      have shape := told.shape other.id
      have blamed := told.blamed other.id
      have still := grounded other.id
      cases atOther : state.table other.id with
      | pending => exact induction _ (height ▸ below) member atOther rfl
      | failed => exact ⟨other, member, atOther⟩
      | cancelled => exact blamed (.inl atOther)
      | skipped => exact blamed (.inr atOther)
      | ready => exact absurd atOther shape.1
      | running => exact absurd atOther still
      | succeeded => exact absurd atOther unsuccessful
      | timedOut => exact absurd atOther shape.2

/-- The invariant of the loop: it halts for a failure only. -/
structure ToldLoop (run : Execution) (loop : Loop) : Prop
    extends Told run loop.toGraphState where
  halted : loop.halting = true → run.Failing loop.table

theorem drainPhase_told (told : Told run loop.toGraphState)
    (sound : Sound run freshNodes loop)
    (failing : run.stuck loop ≠ [] → run.Failing loop.table) :
    Told run (run.drainPhase loop).toGraphState ∧
      (run.Failing loop.table → run.Failing (run.drainPhase loop).table) := by
  rcases drainPhase_cases run loop with broke | ⟨left, drains⟩
  · rw [broke]
    exact ⟨told, id⟩
  · rw [drains]
    have stuckSteps : ∀ step ∈ run.stuck loop,
        step ∈ run.graph.steps ∧ Waiting (loop.table step.id) := by
      intro step inside
      rcases List.mem_filter.mp inside with ⟨listed, waits⟩
      exact ⟨listed, of_decide_eq_true waits⟩
    have drained := drainAll_told told (failing left) sound
      (fun step inside => (stuckSteps step inside).1)
      ((List.filter_sublist.map _).nodup run.graph.uniqueIds)
      fun step inside => (stuckSteps step inside).2
    exact ⟨drained.1, fun _ => drained.2⟩

/-- Collecting and skipping leave a step that has failed. -/
theorem Failing.collect {before middle after : StateTable} (failing : run.Failing before)
    (collected : Collected run before middle) (skipped : SkippedBehind run middle after) :
    run.Failing after := by
  rcases failing with ⟨step, listed, failed⟩
  have kept : middle step.id = .failed := by
    rcases collected step.id with same | ⟨runs, _⟩
    · exact same.trans failed
    · cases failed.symm.trans runs
  rcases skipped step.id with same | ⟨_, pending, _⟩
  · exact ⟨step, listed, same.trans kept⟩
  · cases kept.symm.trans pending

theorem Told.failing_of_firstFailure (told : Told run loop.toGraphState)
    (first : run.firstFailure loop = true) : run.Failing loop.table := by
  rcases List.any_eq_true.mp first with ⟨step, listed, ended⟩
  rcases of_decide_eq_true ended with failed | timedOut
  · exact ⟨step, listed, failed⟩
  · exact absurd timedOut (told.shape step.id).2

theorem collectPhase_told (quiet : run.Quiet) (told : ToldLoop run loop)
    (sound : Sound run freshNodes loop) (done : run.collectPhase turn loop = .ok after) :
    ToldLoop run after := by
  rcases collectPhase_cases done with ⟨collected, skipped, collected_eq, skipped_eq, rfl⟩
  rcases collectCompleted_ok turn sound with
    ⟨_, collects, collectedSound, collectedExtends, settles, _⟩
  obtain rfl := Except.ok.inj (collected_eq.symm.trans collects)
  rcases skipUnsatisfiable_ok collectedSound with ⟨_, skips, _, skippedExtends, _, behind⟩
  obtain rfl := Except.ok.inj (skipped_eq.symm.trans skips)
  have toldSkipped := skipUnsatisfiable_told
    (collectCompleted_told quiet told.toTold collected_eq) skipped_eq
  have halting := skippedExtends.halting.trans collectedExtends.halting
  refine ⟨toldSkipped, fun halted => ?_⟩
  rcases Bool.or_eq_true_iff.mp halted with before | now
  · exact (told.halted (halting.symm.trans before)).collect settles behind
  · exact toldSkipped.failing_of_firstFailure (Bool.and_eq_true_iff.mp now).1

/-- What is submitted in a turn, behind the stop of what was not started. -/
theorem submitPhase_told (quiet : run.Quiet) (acyclic : run.graph.Acyclic) {turns : Nat}
    {started : Loop} (steady : Steady run freshNodes loop) (told : ToldLoop run loop)
    {stopped : Loop} (stopped_eq : run.stopPhase (run.world.turn turns) loop = .ok stopped)
    (started_eq : run.submitPhase (run.world.turn turns) stopped = .ok started) :
    ToldLoop run started ∧
      (started.inFlight = [] → run.stuck started ≠ [] → run.Failing started.table) := by
  unfold stopPhase at stopped_eq
  unfold submitPhase at started_eq
  rw [quiet.atHead turns, Bool.false_or] at stopped_eq
  rw [quiet.atSubmit turns, Bool.not_false, Bool.true_and] at started_eq
  cases halting : loop.halting with
  | true =>
      rw [halting, if_pos rfl] at stopped_eq
      have kept := stopUnstarted_told told.toTold (told.halted halting) stopped_eq
      rcases stopUnstarted_ok (run.world.turn turns) steady.toSound with
        ⟨other, other_eq, _, extends_, _⟩
      cases stopped_eq.symm.trans other_eq
      rw [extends_.halting, halting] at started_eq
      cases started_eq
      exact ⟨⟨kept.1, fun _ => kept.2⟩, fun _ _ => kept.2⟩
  | false =>
      rw [halting] at stopped_eq
      cases stopped_eq
      rw [halting] at started_eq
      rcases submitReady_ok steady.toSound with ⟨other, other_eq, sound, extends_, idle, _⟩
      cases (show run.submitReady loop = .ok started from started_eq).symm.trans other_eq
      have toldStarted := submitAll_told told.toTold other_eq
      refine ⟨⟨toldStarted, fun halted => ?_⟩, fun empty some_ => ?_⟩
      · cases (extends_.halting.trans halting).symm.trans halted
      · rcases idle empty with ⟨none, rfl⟩
        rcases List.exists_mem_of_ne_nil _ some_ with ⟨step, inside⟩
        rcases List.mem_filter.mp inside with ⟨listed, waits⟩
        have pending := (of_decide_eq_true waits).resolve_right (told.shape step.id).1
        apply told.failing_of_waiting acyclic _ (unready_of_ready_eq_nil none) listed pending
        intro id runs
        have flies := (sound.flying id).mpr runs
        simp [empty] at flies

/-- One turn of a quiet call. -/
theorem iterate_told (quiet : run.Quiet) (acyclic : run.graph.Acyclic) {turns : Nat}
    (steady : Steady run freshNodes loop) (goesOn : run.finished loop = false)
    (told : ToldLoop run loop)
    (done : run.iterate (run.world.turn turns) loop = .ok after) : ToldLoop run after := by
  have running : loop.broke = false := by
    simp only [finished, Bool.or_eq_false_iff] at goesOn
    exact goesOn.2
  rcases stopPhase_ok (run.world.turn turns) steady.toSound with
    ⟨stopped, stopped_eq, stoppedSound, stoppedExtends, _⟩
  rcases submitPhase_ok (run.world.turn turns) stoppedSound with
    ⟨started, started_eq, startedSound, startedExtends, _⟩
  rcases submitPhase_told quiet acyclic steady told stopped_eq started_eq with
    ⟨toldStarted, failing⟩
  simp only [iterate, stopped_eq, started_eq, bind, Except.bind] at done
  split at done
  · next empty =>
      cases done
      have drained := drainPhase_told toldStarted.toTold startedSound (failing empty)
      have running' := (stoppedExtends.trans startedExtends).broke.trans running
      rcases drainPhase_ok startedSound running' empty with ⟨_, _, _, _, halting, _⟩
      exact ⟨drained.1, fun halted =>
        drained.2 (toldStarted.halted (halting.symm.trans halted))⟩
  · exact collectPhase_told quiet toldStarted startedSound done

theorem after_told (quiet : run.Quiet) (acyclic : run.graph.Acyclic) (turns : Nat) :
    ∀ loop, run.after freshNodes turns = .ok loop → ToldLoop run loop := by
  induction turns with
  | zero =>
      intro loop reached
      cases reached
      exact ⟨told_freshNodes run, fun halted => by cases halted⟩
  | succ turns induction =>
      intro loop reached
      rcases @after_ok run freshNodes idle_freshNodes turns with ⟨before, reached', steady⟩
      have told := induction before reached'
      cases stands : run.finished before with
      | true =>
          cases (after_succ_of_finished reached' stands).symm.trans reached
          exact told
      | false =>
          exact iterate_told quiet acyclic steady stands told
            ((after_succ_of_goesOn reached' stands).symm.trans reached)

/-! ## The result -/

/-- The calls of the steps that were started, by step id and position. -/
def madeCalls (run : Execution) (loop : Loop) : List (String × Nat) :=
  run.graph.steps.flatMap fun step =>
    if loop.table step.id ∈ Schedule.executed then
      (List.range (run.made step)).map (step.id, ·)
    else []

theorem mem_madeCalls {position : Nat} :
    (id, position) ∈ run.madeCalls loop ↔
      ∃ step ∈ run.graph.steps, step.id = id ∧ loop.table step.id ∈ Schedule.executed ∧
        position < run.made step := by
  unfold madeCalls
  rw [List.mem_flatMap]
  apply exists_congr
  intro step
  apply and_congr_right
  intro _
  split
  · next started => simp [started, and_comm]
  · next idle => simp [idle]

theorem nodup_madeCalls (run : Execution) (loop : Loop) : (run.madeCalls loop).Nodup := by
  apply List.nodup_flatMap.mpr
  constructor
  · intro step _
    split
    · exact List.nodup_range.map fun _ _ same => congrArg Prod.snd same
    · exact List.nodup_nil
  · have distinct := List.pairwise_map.mp run.graph.uniqueIds
    apply distinct.imp
    intro first second different place inFirst inSecond
    apply different
    dsimp only at inFirst inSecond
    split at inFirst
    · split at inSecond
      · rcases List.mem_map.mp inFirst with ⟨_, _, rfl⟩
        rcases List.mem_map.mp inSecond with ⟨_, _, same⟩
        exact (congrArg Prod.fst same).symm
      · cases inSecond
    · cases inFirst

/-- The tool results that a call reports are those that its nodes keep. -/
theorem mem_allToolResults {result : ToolResult} :
    result ∈ (run.finish loop).1.allToolResults ↔
      ∃ id ∈ run.graph.ids, result ∈ loop.toolResults id := by
  have kept : ∀ id, ((run.stampCompletion loop).node id).toolResults =
      loop.toolResults id := by
    intro id
    simp only [stampCompletion, GraphState.toolResults]
    split <;> rfl
  have found : ∀ ids : List String, ∀ id ∈ ids,
      (((ids.map fun id => (id, loop.toolResults id)).find? (·.1 = id)).map (·.2)).getD [] =
        loop.toolResults id := by
    intro ids id member
    induction ids with
    | nil => cases member
    | cons first rest induction =>
        by_cases same : first = id
        · simp [same]
        · have later : id ∈ rest := by
            rcases List.mem_cons.mp member with rfl | later
            · exact absurd rfl same
            · exact later
          simpa [same] using induction later
  have results : (run.finish loop).1.results =
      run.graph.ids.map fun id => (id, loop.toolResults id) := by
    apply List.map_congr_left
    intro id _
    exact congrArg (Prod.mk id) (kept id)
  unfold ExecutionResult.allToolResults
  simp only [List.mem_flatMap, ExecutionResult.resultsOf, results]
  constructor
  · rintro ⟨entry, member, inside⟩
    rcases List.mem_map.mp member with ⟨id, listed, rfl⟩
    exact ⟨id, listed, found _ id listed ▸ inside⟩
  · rintro ⟨id, listed, inside⟩
    exact ⟨_, List.mem_map_of_mem listed, (found _ id listed).symm ▸ inside⟩

/-- What a call that nothing disturbs has come to, with the calls that were made. -/
structure Ending (graph : TaskGraph) (answer : String → Nat → ToolResult)
    (result : ExecutionResult) (made : List (String × Nat)) : Prop where
  timedOut : result.timedOut = []
  /-- A call that completes has made every call, with success. -/
  completed : result.status = .completed → ∀ step ∈ graph.steps,
    ∀ position < step.tools.length,
      (step.id, position) ∈ made ∧ (answer step.id position).success = true
  /-- Any other has failed, with a call that has failed. -/
  failed : result.status ≠ .completed → result.status = .failed ∧
    ∃ place ∈ made, (answer place.1 place.2).success = false ∧
      answer place.1 place.2 ∈ result.allToolResults
  reported : ∀ reply ∈ result.allToolResults,
    ∃ place ∈ made, reply = answer place.1 place.2
  within : ∀ place ∈ made, ∃ step ∈ graph.steps, step.id = place.1 ∧
    place.2 < step.tools.length
  nodup : made.Nodup

theorem executed_of_hasReturned {state : StepState} (returned : HasReturned state) :
    state ∈ Schedule.executed := by
  rcases returned with rfl | rfl
  · decide
  · decide

theorem ending_of_finished (quiet : run.Quiet) (answered : run.Answered answer)
    (acyclic : run.graph.Acyclic) {turns : Nat}
    (reached : run.after freshNodes turns = .ok loop) (stands : run.finished loop = true) :
    Ending run.graph answer (run.finish loop).1 (run.madeCalls loop) := by
  have steady := steady_of_after idle_freshNodes reached
  have told := after_told quiet acyclic turns loop reached
  have terminal := terminal_of_done (done_of_finished steady stands)
  have stamped := table_stampCompletion run loop
  have ran := runNode_made quiet answered
  have status : (run.finish loop).1.status = .completed ↔
      ∀ id ∈ run.graph.ids, loop.table id = .succeeded := by
    rw [← stamped]
    exact overallStatus_eq_completed quiet.atEnd
  -- A result of a thread is the answer to one of its calls.
  have answers : ∀ step ∈ run.graph.steps, HasReturned (loop.table step.id) →
      ∀ reply ∈ (run.runNode step).results,
        ∃ place ∈ run.madeCalls loop, reply = answer place.1 place.2 := by
    intro step listed returned reply inside
    rw [(ran step).results, List.nil_append] at inside
    rcases List.mem_map.mp inside with ⟨place, below, rfl⟩
    refine ⟨(step.id, place), mem_madeCalls.mpr ?_, by rw [Nat.zero_add]⟩
    exact ⟨step, listed, rfl, executed_of_hasReturned returned, List.mem_range.mp below⟩
  constructor
  · apply List.filter_eq_nil_iff.mpr
    intro id _
    rw [decide_eq_true_eq]
    exact fun late => (told.shape id).2 ((congrFun stamped id).symm.trans late)
  · intro completed step listed position inside
    have succeeded := status.mp completed step.id (TaskGraph.mem_ids listed)
    have ok : (run.runNode step).ok = true := by
      rcases steady.called step listed succeeded with before | made
      · cases before
      · exact made.1
    rcases (ran step).succeeded ok with ⟨all, successes⟩
    have below : position < run.made step := all ▸ inside
    constructor
    · apply mem_madeCalls.mpr
      exact ⟨step, listed, rfl, executed_of_hasReturned (.inl succeeded), below⟩
    · rw [← Nat.zero_add position]
      exact successes position below
  · intro unfinished
    have failing : run.Failing loop.table := by
      by_contra none
      apply unfinished
      apply status.mpr
      intro id listed
      have ended := terminal id listed
      have shape := told.shape id
      have blamed := told.blamed id
      rcases TaskGraph.exists_step listed with ⟨step, member, rfl⟩
      cases state : loop.table step.id with
      | succeeded => rfl
      | failed => exact absurd ⟨step, member, state⟩ none
      | cancelled => exact absurd (blamed (.inl state)) none
      | skipped => exact absurd (blamed (.inr state)) none
      | timedOut => exact absurd state shape.2
      | pending => simp [state, terminalStepStates] at ended
      | ready => exact absurd state shape.1
      | running => simp [state, terminalStepStates] at ended
    constructor
    · have open_ := quiet.atEnd
      change run.overallStatus _ ≠ .completed at unfinished
      change run.overallStatus _ = .failed
      unfold overallStatus at unfinished ⊢
      simp only [open_, Bool.false_eq_true, if_false] at unfinished ⊢
      split
      · next all => simp [all] at unfinished
      · rfl
    · rcases failing with ⟨step, listed, state⟩
      rcases (ran step).failed (told.failed step listed state) with ⟨last, made, fails⟩
      rw [Nat.zero_add] at fails
      have below : last < run.made step := by omega
      refine ⟨(step.id, last), mem_madeCalls.mpr ?_, fails, mem_allToolResults.mpr ?_⟩
      · exact ⟨step, listed, rfl, executed_of_hasReturned (.inr state), below⟩
      · refine ⟨step.id, TaskGraph.mem_ids listed, ?_⟩
        rw [told.recorded step listed, if_pos (.inr state), (ran step).results]
        apply List.mem_map.mpr
        exact ⟨last, List.mem_range.mpr below, by rw [Nat.zero_add]⟩
  · intro reply inside
    rcases mem_allToolResults.mp inside with ⟨id, listed, kept⟩
    rcases TaskGraph.exists_step listed with ⟨step, member, rfl⟩
    rw [told.recorded step member] at kept
    split at kept
    · next returned => exact answers step member returned reply kept
    · cases kept
  · rintro ⟨id, position⟩ member
    rcases mem_madeCalls.mp member with ⟨step, listed, same, _, below⟩
    exact ⟨step, listed, same, below.trans_le (ran step).within⟩
  · exact nodup_madeCalls run loop

end Execution

end Raphael.Agent.Executor
