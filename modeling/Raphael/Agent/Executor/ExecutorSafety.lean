import Raphael.Agent.Executor.ExecutorInvariant

/-! # Safety and termination of the executor

Every turn of the main loop succeeds and follows a schedule; and when every tool call
returns, the loop ends, since each turn that collects a step shortens what is left. -/

namespace Raphael.Agent.Executor

open Core

namespace Execution

variable {run : Execution} {nodes : String → GraphNode}

/-- The nodes of a graph built from a plan. -/
def freshNodes : String → GraphNode := fun _ => {}

/-- Every step in flight is among the reported futures of some later turn. -/
def EveryCallReturns (run : Execution) (nodes : String → GraphNode) : Prop :=
  ∀ turns loop, run.after nodes turns = .ok loop → ∀ id ∈ loop.inFlight,
    ∃ later, turns ≤ later ∧ id ∈ (run.world.turn later).completed

/-! ## Every turn -/

theorem start_steady (idle : ∀ id, states nodes id ≠ .running) :
    Steady run nodes (run.start nodes) where
  tracked := ⟨.nil, rfl, fun _ => (Int.add_zero _).symm⟩
  idle := idle
  flying := fun id => iff_of_false List.not_mem_nil (idle id)
  nodup := List.nodup_nil
  bounded := Nat.zero_le _
  called := fun _ _ succeeded => .inl succeeded
  own := fun _ _ inside => absurd inside List.not_mem_nil
  broke_done := fun broke => absurd broke Bool.false_ne_true

theorem after_succ_of_finished {turns : Nat} {loop : Loop}
    (reached : run.after nodes turns = .ok loop) (stands : run.finished loop = true) :
    run.after nodes (turns + 1) = .ok loop := by
  simp [after, reached, bind, Except.bind, stands]
  rfl

theorem after_succ_of_goesOn {turns : Nat} {loop : Loop}
    (reached : run.after nodes turns = .ok loop) (goesOn : run.finished loop = false) :
    run.after nodes (turns + 1) = run.iterate (run.world.turn turns) loop := by
  simp [after, reached, bind, Except.bind, goesOn]

/-- The loop after any number of turns is there, and keeps the invariant. -/
theorem after_ok (idle : ∀ id, states nodes id ≠ .running) (turns : Nat) :
    ∃ loop, run.after nodes turns = .ok loop ∧ Steady run nodes loop := by
  induction turns with
  | zero => exact ⟨_, rfl, start_steady idle⟩
  | succ turns induction =>
      rcases induction with ⟨loop, reached, steady⟩
      cases stands : run.finished loop with
      | true => exact ⟨loop, after_succ_of_finished reached stands, steady⟩
      | false =>
          rcases iterate_ok (run.world.turn turns) steady stands with ⟨next, done, steady', _⟩
          exact ⟨next, (after_succ_of_goesOn reached stands).trans done, steady'⟩

theorem steady_of_after (idle : ∀ id, states nodes id ≠ .running) {turns : Nat} {loop : Loop}
    (reached : run.after nodes turns = .ok loop) : Steady run nodes loop := by
  rcases after_ok idle turns with ⟨other, reached', steady⟩
  cases reached.symm.trans reached'
  exact steady

theorem done_of_finished {loop : Loop} (steady : Steady run nodes loop)
    (stands : run.finished loop = true) : loop.done run.graph = true := by
  rcases Bool.or_eq_true_iff.mp stands with done | broke
  · exact done
  · exact steady.broke_done broke

theorem terminal_of_done {loop : Loop} (done : loop.done run.graph = true) :
    ∀ id ∈ run.graph.ids, loop.table id ∈ terminalStepStates := by
  intro id listed
  rcases TaskGraph.exists_step listed with ⟨step, member, rfl⟩
  simpa using List.all_eq_true.mp done step member

/-- The completion times written at the end leave the states alone. -/
theorem table_stampCompletion (run : Execution) (loop : Loop) :
    (run.stampCompletion loop).table = loop.table := by
  funext id
  simp only [stampCompletion, GraphState.table]
  split <;> rfl

/-! ## Termination -/

/-- A loop that goes on makes progress by the time a step in flight is reported. -/
theorem progress (idle : ∀ id, states nodes id ≠ .running)
    (returns : run.EveryCallReturns nodes) {turns : Nat} {loop : Loop}
    (reached : run.after nodes turns = .ok loop) :
    ∃ later next, run.after nodes later = .ok next ∧
      (run.finished next = true ∨ loop.changes.length < next.changes.length) := by
  have steady := steady_of_after idle reached
  cases stands : run.finished loop with
  | true => exact ⟨turns, loop, reached, .inl stands⟩
  | false =>
      by_cases empty : loop.inFlight = []
      · rcases iterate_ok (run.world.turn turns) steady stands with
          ⟨next, done, _, _, _, grows⟩
        exact ⟨turns + 1, next, (after_succ_of_goesOn reached stands).trans done,
          (grows (.inl empty)).symm⟩
      · rcases List.exists_mem_of_ne_nil _ empty with ⟨id, flies⟩
        rcases returns turns loop reached id flies with ⟨later, after_, reported⟩
        obtain ⟨wait, rfl⟩ := Nat.exists_eq_add_of_le after_
        -- Induction on the turns left until the report.
        clear after_
        induction wait generalizing turns loop with
        | zero =>
            rcases iterate_ok (run.world.turn turns) steady stands with
              ⟨next, done, _, _, _, grows⟩
            exact ⟨turns + 1, next, (after_succ_of_goesOn reached stands).trans done,
              (grows (.inr ⟨id, flies, reported⟩)).symm⟩
        | succ wait induction =>
            rcases iterate_ok (run.world.turn turns) steady stands with
              ⟨next, done, steady', longer, _⟩
            have reached' := (after_succ_of_goesOn reached stands).trans done
            by_cases grows : loop.changes.length < next.changes.length
            · exact ⟨turns + 1, next, reached', .inr grows⟩
            · cases stands' : run.finished next with
              | true => exact ⟨turns + 1, next, reached', .inl stands'⟩
              | false =>
                  have same := (longer.eq_of_length_le (not_lt.mp grows)).symm
                  have flies' := (steady.toSound.flying_of_changes_eq steady'.toSound same
                    id).mpr flies
                  have reported' : id ∈ (run.world.turn (turns + 1 + wait)).completed := by
                    rwa [Nat.add_assoc, Nat.add_comm 1 wait]
                  rcases induction reached' steady' stands'
                    (List.ne_nil_of_mem flies') flies' reported' with
                    ⟨later, last, reached'', ends⟩
                  exact ⟨later, last, reached'', by rwa [same] at ends⟩

theorem idle_freshNodes (id : String) : states freshNodes id ≠ .running := by
  simp [states, freshNodes]

/-- The call that reports every step in every turn. -/
def eager (graph : TaskGraph) (reply : String → Nat → ToolReply) : Execution where
  executor := { failurePolicy := .continueIndependent }
  taskId := ""
  graph := graph
  world := {
    turn := fun _ => { completed := graph.ids }
    reply }

/-- The default configuration. -/
def defaultExecutor : ParallelExecutor := {}

/-- `b` is listed before `a`, on which it depends. -/
def twoStepPlan : Plan where
  id := "p"
  steps := [{ id := "b", dependencies := ["a"], tools := ["ok"] }, { id := "a", tools := ["ok"] }]

def twoSteps : TaskGraph where
  steps := twoStepPlan.steps
  uniqueIds := by decide
  knownDependencies := by decide

end Execution

end Raphael.Agent.Executor
