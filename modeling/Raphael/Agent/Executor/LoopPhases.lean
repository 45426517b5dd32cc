import Raphael.Agent.Executor.ExecutorInvariant

/-! # The operations of a turn by cases

What each operation of the loop has done where it has succeeded, and for each of its
inner loops the rule that what the body keeps is kept. -/

namespace Raphael.Agent.Executor

open Core Foundation

namespace Execution

variable {run : Execution} {turn : Turn} {loop after : Loop} {step : PlanStep}

/-! ## Stopping and starting -/

theorem stop_cases (done : run.stop turn loop step = .ok after) :
    ¬ Waiting (loop.table step.id) ∧ after = loop ∨
      Waiting (loop.table step.id) ∧
        after = run.emit ((loop.move step.id .cancelled).amend step.id fun node =>
            { node with error := "never started: " ++ stopReason turn }) .stepCancelled
          [("step_id", .str step.id), ("reason", .str (stopReason turn))] := by
  unfold stop at done
  split at done
  · next waits =>
      rw [Loop.transition_of_legal (legal_of_waiting waits (.inr rfl)).1] at done
      exact .inr ⟨waits, (Except.ok.inj done).symm⟩
  · next settled => exact .inl ⟨settled, (Except.ok.inj done).symm⟩

theorem stopPhase_keeps (Holds : Loop → Prop)
    (each : ∀ step loop after, Holds loop → run.stop turn loop step = .ok after → Holds after)
    (holds : Holds loop) (done : run.stopPhase turn loop = .ok after) : Holds after := by
  unfold stopPhase at done
  split at done
  · exact foldlM_keeps Holds (fun step _ => each step) holds done
  · cases done
    exact holds

private theorem pending_of_readied {state : StepState}
    (legal : .ready ∈ graphTransitions state) : state = .pending := by
  cases state <;> simp_all [graphTransitions]

/-- A step that is started was pending, and takes two changes. -/
theorem submit_cases (done : run.submit loop step = .ok after) :
    loop.table step.id = .pending ∧ ∃ readied : Loop,
      readied = run.emit (loop.move step.id .ready) .stepReady [("step_id", .str step.id)] ∧
      after = { run.emit ((readied.move step.id .running).amend step.id (run.attempt step.id))
          .stepStarted [("step_id", .str step.id)] with
        inFlight := loop.inFlight ++ [step.id] } := by
  unfold submit at done
  rcases except_bind_eq_ok.mp done with ⟨_, readied, done⟩
  rcases Loop.transition_eq_ok.mp readied with ⟨legal, rfl⟩
  rcases except_bind_eq_ok.mp done with ⟨_, started, done⟩
  rcases Loop.transition_eq_ok.mp started with ⟨_, rfl⟩
  exact ⟨pending_of_readied legal, _, rfl, (Except.ok.inj done).symm⟩

theorem submitAll_keeps (Holds : Loop → Prop)
    (each : ∀ step loop after, Holds loop → run.submit loop step = .ok after → Holds after)
    {steps : List PlanStep} (holds : Holds loop) (done : run.submitAll steps loop = .ok after) :
    Holds after := by
  induction steps generalizing loop with
  | nil =>
      cases done
      exact holds
  | cons step rest induction =>
      unfold submitAll at done
      split at done
      · cases done
        exact holds
      · rcases except_bind_eq_ok.mp done with ⟨middle, submitted, rest⟩
        exact induction (each step loop middle holds submitted) rest

theorem submitPhase_keeps (Holds : Loop → Prop)
    (each : ∀ step loop after, Holds loop → run.submit loop step = .ok after → Holds after)
    (holds : Holds loop) (done : run.submitPhase turn loop = .ok after) : Holds after := by
  unfold submitPhase at done
  split at done
  · exact submitAll_keeps Holds each holds done
  · cases done
    exact holds

/-! ## Collecting and skipping -/

/-- A step that is collected ran, unless only its future is dropped. -/
theorem settle_cases (done : run.settle loop step = .ok after) :
    after = { loop with inFlight := loop.inFlight.erase step.id } ∨
      loop.table step.id = .running ∧ ∃ target error eventType payload,
        run.settlement step = (target, error, eventType, payload) ∧
        after = { run.emit
            (((({ loop with inFlight := loop.inFlight.erase step.id } : Loop).amend step.id
              (run.record (run.runNode step) step.id)).move step.id target).amend step.id
              fun node =>
                { node with error := if target = .succeeded then node.error else error })
            eventType payload with
          contextResults := loop.contextResults ++ (run.runNode step).results
          calls := loop.calls ++ (run.runNode step).calls.map (step.id, ·) } := by
  unfold settle at done
  dsimp only at done
  split at done
  · exact .inl (Except.ok.inj done).symm
  · next runs =>
      have running : loop.table step.id = .running := not_not.mp runs
      have legal := (settlement_legal run step).1
      rcases settled : run.settlement step with ⟨target, error, eventType, payload⟩
      rw [settled] at done legal
      rw [Loop.transition_of_legal (by
        rw [Loop.toGraphState_amend, GraphState.table_amend _ _ _ rfl]
        exact running ▸ legal)] at done
      exact .inr ⟨running, target, error, eventType, payload, rfl, (Except.ok.inj done).symm⟩

theorem collectCompleted_keeps (Holds : Loop → Prop)
    (each : ∀ step ∈ run.graph.steps, ∀ loop after, Holds loop →
      run.settle loop step = .ok after → Holds after)
    (holds : Holds loop) (done : run.collectCompleted turn loop = .ok after) :
    Holds after := by
  apply foldlM_keeps Holds _ holds done
  intro id _ middle next holds collected
  unfold collect at collected
  split at collected
  · next step found =>
      split at collected
      · exact each step (List.mem_of_find?_eq_some found) middle next holds collected
      · cases collected
        exact holds
  · cases collected
    exact holds

/-- A step that is skipped was pending, behind a dependency that ended without success. -/
theorem skipStep_cases {state next : GraphState} {skipped more : List String}
    (done : GraphState.skipUnsatisfiable (state, skipped) step = .ok (next, more)) :
    next = state ∧ more = skipped ∨
      state.table step.id = .pending ∧ more = skipped ++ [step.id] ∧
        ∃ bad ∈ step.dependencies, state.table bad ∈ nonSuccessTerminal ∧ ∃ error : String,
          next = (state.move step.id .skipped).amend step.id fun node => { node with error } := by
  unfold GraphState.skipUnsatisfiable at done
  dsimp only at done
  split at done
  · cases done
    exact .inl ⟨rfl, rfl⟩
  · next pending =>
      have waits : state.table step.id = .pending := not_not.mp pending
      split at done
      · cases done
        exact .inl ⟨rfl, rfl⟩
      · next bad found =>
          have ended : state.table bad ∈ nonSuccessTerminal :=
            of_decide_eq_true (List.find?_some
              (p := fun dependency => state.table dependency ∈ nonSuccessTerminal) found)
          rw [GraphState.transition_of_legal (by simp [waits, graphTransitions])] at done
          cases done
          exact .inr ⟨waits, rfl, bad, List.mem_of_find?_eq_some found, ended, _, rfl⟩

/-- The steps that `mark_unsatisfiable` skips are told of in their order. -/
theorem skipUnsatisfiable_cases (done : run.skipUnsatisfiable loop = .ok after) :
    ∃ state skipped payloads,
      loop.toGraphState.markUnsatisfiable run.graph = .ok (state, skipped) ∧
      List.Forall₂ (fun id payload =>
        Json.lookup "step_id" payload = some (.str id)) skipped payloads ∧
      after = { loop.withGraph state with
        events := loop.events ++ payloads.map fun payload =>
          { eventType := .stepSkipped, taskId := run.taskId, payload } } := by
  unfold skipUnsatisfiable at done
  rcases except_bind_eq_ok.mp done with ⟨⟨state, skipped⟩, marked, done⟩
  rcases foldl_emit run (loop.withGraph state) .stepSkipped skipped
    (fun loop id => [("step_id", .str id), ("error", .str (loop.node id).error)]) with
    ⟨payloads, emitted, given⟩
  refine ⟨state, skipped, payloads, marked, ?_, ?_⟩
  · apply given.imp
    rintro id _ ⟨loop, rfl⟩
    rfl
  · exact (Except.ok.inj done).symm.trans emitted

theorem collectPhase_cases (done : run.collectPhase turn loop = .ok after) :
    ∃ collected skipped, run.collectCompleted turn loop = .ok collected ∧
      run.skipUnsatisfiable collected = .ok skipped ∧
      after = run.persist { skipped with
        halting := skipped.halting ||
          (run.firstFailure skipped && run.executor.failurePolicy = .failFast) } := by
  unfold collectPhase at done
  rcases except_bind_eq_ok.mp done with ⟨collected, collects, done⟩
  rcases except_bind_eq_ok.mp done with ⟨skipped, skips, done⟩
  exact ⟨collected, skipped, collects, skips, (Except.ok.inj done).symm⟩

/-! ## Draining -/

theorem drain_cases (run : Execution) (loop : Loop) (step : PlanStep) :
    run.drain loop step = loop ∨
      run.drain loop step = run.emit ((loop.move step.id .skipped).amend step.id fun node =>
          { node with error := "unsatisfiable dependencies; skipped defensively" })
        .stepSkipped [("step_id", .str step.id)] := by
  unfold drain
  cases moved : loop.transition step.id .skipped with
  | error error => exact .inl rfl
  | ok next =>
      rcases Loop.transition_eq_ok.mp moved with ⟨_, rfl⟩
      exact .inr rfl

theorem drainPhase_cases (run : Execution) (loop : Loop) :
    run.drainPhase loop = { loop with broke := true } ∨
      run.stuck loop ≠ [] ∧
        run.drainPhase loop = run.persist ((run.stuck loop).foldl run.drain loop) := by
  unfold drainPhase drainStuck
  split
  · exact .inl rfl
  · next drained found =>
      split at found
      · cases found
      · next left =>
          obtain rfl := Option.some.inj found
          exact .inr ⟨fun none => left (.inl none), rfl⟩

/-! ## A turn -/

/-- A turn stops steps and starts steps, and then drains the stuck ones or collects. -/
theorem iterate_cases (done : run.iterate turn loop = .ok after) :
    ∃ stopped started, run.stopPhase turn loop = .ok stopped ∧
      run.submitPhase turn stopped = .ok started ∧
      (started.inFlight = [] ∧ after = run.drainPhase started ∨
        started.inFlight ≠ [] ∧ run.collectPhase turn started = .ok after) := by
  unfold iterate at done
  rcases except_bind_eq_ok.mp done with ⟨stopped, stops, done⟩
  rcases except_bind_eq_ok.mp done with ⟨started, starts, done⟩
  refine ⟨stopped, started, stops, starts, ?_⟩
  split at done
  · next empty => exact .inl ⟨empty, (Except.ok.inj done).symm⟩
  · next flying => exact .inr ⟨flying, done⟩

/-- What the start has and a turn keeps holds at every turn. -/
theorem after_keeps {nodes : String → GraphNode} {turns : Nat} (Holds : Loop → Prop)
    (initially : Holds (run.start nodes))
    (each : ∀ turn loop after, Holds loop → run.iterate turn loop = .ok after → Holds after)
    (reached : run.after nodes turns = .ok loop) : Holds loop := by
  induction turns generalizing loop with
  | zero =>
      obtain rfl := Except.ok.inj reached
      exact initially
  | succ turns induction =>
      unfold after at reached
      rcases except_bind_eq_ok.mp reached with ⟨before, earlier, reached⟩
      split at reached
      · cases reached
        exact induction earlier
      · exact each _ _ _ (induction earlier) reached

end Execution

end Raphael.Agent.Executor
