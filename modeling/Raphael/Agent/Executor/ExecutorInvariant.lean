import Raphael.Agent.Executor.ParallelExecutor
import Raphael.Agent.Executor.Schedule
import Raphael.Foundation.FallibleFold

/-! # The executor follows a schedule

The invariant of the main loop: its log is a schedule that leads to the node states
at hand, the steps in flight are the running ones, and the nodes' own counts agree
with the log. No phase of a turn ever asks for an illegal transition. -/

namespace Raphael.Agent.Executor

open Core Foundation

/-! ## Fields the operations leave alone -/

namespace Loop

/-- A transition that was taken. -/
def move (loop : Loop) (id : String) (target : StepState) : Loop :=
  loop.withGraph (loop.toGraphState.move id target)

theorem transition_of_legal {loop : Loop} {id : String} {target : StepState}
    (legal : target ∈ graphTransitions (loop.table id)) :
    loop.transition id target = .ok (loop.move id target) := by
  simp only [transition, GraphState.transition_of_legal legal]
  rfl

theorem transition_eq_ok {loop after : Loop} {id : String} {target : StepState} :
    loop.transition id target = .ok after ↔
      target ∈ graphTransitions (loop.table id) ∧ loop.move id target = after := by
  unfold transition
  cases moved : loop.toGraphState.transition id target with
  | error error =>
      have illegal : target ∉ graphTransitions (loop.table id) := fun legal => by
        rw [GraphState.transition_of_legal legal] at moved
        cases moved
      simp [bind, Except.bind, illegal]
  | ok state =>
      rcases GraphState.transition_eq_ok.mp moved with ⟨legal, rfl⟩
      simp [bind, Except.bind, pure, Except.pure, legal, move]

@[simp] theorem toGraphState_withGraph (loop : Loop) (state : GraphState) :
    (loop.withGraph state).toGraphState = state := rfl

@[simp] theorem toGraphState_amend (loop : Loop) (id : String)
    (change : GraphNode → GraphNode) :
    (loop.amend id change).toGraphState = loop.toGraphState.amend id change := rfl

@[simp] theorem toGraphState_move (loop : Loop) (id : String) (target : StepState) :
    (loop.move id target).toGraphState = loop.toGraphState.move id target := rfl

/-- The later loop extends the log, and the flags and the saved graph are the same. -/
structure Extends (before after : Loop) : Prop where
  changes : before.changes <+: after.changes
  halting : after.halting = before.halting
  broke : after.broke = before.broke
  saved : after.saved = before.saved

namespace Extends

theorem refl (loop : Loop) : Extends loop loop := ⟨List.prefix_rfl, rfl, rfl, rfl⟩

theorem trans {first middle last : Loop} (front : Extends first middle)
    (back : Extends middle last) : Extends first last :=
  ⟨front.changes.trans back.changes, back.halting.trans front.halting,
    back.broke.trans front.broke, back.saved.trans front.saved⟩

theorem move (loop : Loop) (id : String) (target : StepState) :
    Extends loop (loop.move id target) :=
  ⟨⟨_, rfl⟩, rfl, rfl, rfl⟩

end Extends

end Loop

namespace Execution

variable {run : Execution} {nodes : String → GraphNode}

@[simp] theorem toGraphState_emit (loop : Loop) (eventType : EventType)
    (payload : List (String × Json)) :
    (run.emit loop eventType payload).toGraphState = loop.toGraphState := rfl

@[simp] theorem inFlight_emit (loop : Loop) (eventType : EventType)
    (payload : List (String × Json)) :
    (run.emit loop eventType payload).inFlight = loop.inFlight := rfl

/-! ## The invariant of the graph -/

/-- The states the loop starts from. -/
def states (nodes : String → GraphNode) : StateTable := fun id => (nodes id).state

/-- The log is a schedule, it leads to the node states, and every attempt is in it. -/
structure Tracked (run : Execution) (nodes : String → GraphNode) (state : GraphState) :
    Prop where
  accepted : Schedule.Accepted run.graph run.executor.maxConcurrency (states nodes)
    state.changes
  table_eq : state.table = Schedule.replay (states nodes) state.changes
  attempts : ∀ id, (state.node id).attempts =
    (nodes id).attempts + Schedule.starts state.changes id

namespace Tracked

variable {state : GraphState}

theorem admits (tracked : Tracked run nodes state) {id : String} {target : StepState}
    (member : id ∈ run.graph.ids) (legal : target ∈ graphTransitions (state.table id))
    (waits : target ≠ .running) :
    Schedule.Admits run.graph run.executor.maxConcurrency
      (Schedule.replay (states nodes) state.changes) ⟨id, state.table id, target⟩ where
  member := member
  source := by rw [← tracked.table_eq]
  legal := legal
  dependencies := fun begins => absurd begins waits
  room := fun begins => absurd begins waits

/-- A change that does not start a step. -/
theorem move (tracked : Tracked run nodes state) {id : String} {target : StepState}
    (member : id ∈ run.graph.ids) (legal : target ∈ graphTransitions (state.table id))
    (waits : target ≠ .running) : Tracked run nodes (state.move id target) where
  accepted := Schedule.accepted_concat.mpr
    ⟨tracked.accepted, tracked.admits member legal waits⟩
  table_eq := by
    rw [GraphState.table_move, GraphState.changes_move, Schedule.replay_concat,
      tracked.table_eq]
  attempts := by
    intro other
    rw [GraphState.changes_move, Schedule.starts_concat]
    by_cases same : other = id
    · subst same
      simpa [GraphState.move, waits] using tracked.attempts other
    · simpa [GraphState.move, waits, Function.update_of_ne same] using tracked.attempts other

theorem amend (tracked : Tracked run nodes state) (id : String)
    (change : GraphNode → GraphNode)
    (state_eq : (change (state.node id)).state = (state.node id).state)
    (attempts_eq : (change (state.node id)).attempts = (state.node id).attempts) :
    Tracked run nodes (state.amend id change) where
  accepted := tracked.accepted
  table_eq := by rw [GraphState.table_amend state id change state_eq]; exact tracked.table_eq
  attempts := by
    intro other
    by_cases same : other = id
    · subst same
      simpa [GraphState.amend, attempts_eq] using tracked.attempts other
    · simpa [GraphState.amend, Function.update_of_ne same] using tracked.attempts other

/-- A step becomes ready, runs, and counts the attempt. -/
theorem start (tracked : Tracked run nodes state) {step : PlanStep}
    (change : GraphNode → GraphNode) (member : step ∈ run.graph.steps)
    (pending : state.table step.id = .pending)
    (behind : ∀ dependency ∈ step.dependencies, state.table dependency = .succeeded)
    (room : Schedule.running run.graph
      (Function.update state.table step.id .running) ≤ run.executor.maxConcurrency)
    (state_eq : ∀ node, (change node).state = node.state)
    (attempts_eq : ∀ node, (change node).attempts = node.attempts + 1) :
    Tracked run nodes
      (((state.move step.id .ready).move step.id .running).amend step.id change) := by
  have listed := TaskGraph.mem_ids member
  have readied : Tracked run nodes (state.move step.id .ready) :=
    tracked.move listed (by simp [pending, graphTransitions]) (by simp)
  have readyTable : (state.move step.id .ready).table step.id = .ready := by simp
  refine ⟨?_, ?_, ?_⟩
  · refine Schedule.accepted_concat.mpr ⟨readied.accepted, listed, ?_, ?_, ?_, ?_⟩
    · rw [← readied.table_eq]
    · simp [readyTable, graphTransitions]
    · intro _ dependency depends
      rw [← readied.table_eq, GraphState.table_move]
      have named := (TaskGraph.dependsOn_iff member).mp depends
      have done := behind dependency named
      have different : dependency ≠ step.id := by
        rintro rfl
        exact absurd (pending.symm.trans done) (by decide)
      rw [Function.update_of_ne different, done]
    · intro _
      rw [← readied.table_eq, GraphState.table_move, Function.update_idem]
      exact room
  · rw [GraphState.table_amend _ _ _ (state_eq _), GraphState.table_move,
      GraphState.changes_amend, GraphState.changes_move, Schedule.replay_concat,
      readied.table_eq]
  · intro other
    rw [GraphState.changes_amend, GraphState.changes_move, Schedule.starts_concat]
    have before := readied.attempts other
    by_cases same : other = step.id
    · subst same
      simp only [GraphState.amend, GraphState.move, Function.update_self, attempts_eq] at before ⊢
      simp only [true_and, if_true]
      omega
    · simpa [GraphState.amend, GraphState.move, Function.update_of_ne same, Ne.symm same]
        using before

/-- The running steps are no more than a list that names each of them. -/
theorem running_le {table : StateTable} {flying : List String}
    (covers : ∀ id, table id = .running → id ∈ flying) :
    Schedule.running run.graph table ≤ flying.length := by
  have nodup : (run.graph.ids.filter fun id => table id = .running).Nodup :=
    run.graph.uniqueIds.filter _
  have inside : (run.graph.ids.filter fun id => table id = .running) ⊆ flying := by
    intro id member
    exact covers id (of_decide_eq_true (List.mem_filter.mp member).2)
  rw [Schedule.running, List.countP_eq_length_filter]
  exact (List.subperm_of_subset nodup inside).length_le

end Tracked

/-! ## The invariant of the loop -/

structure Sound (run : Execution) (nodes : String → GraphNode) (loop : Loop) : Prop where
  tracked : Tracked run nodes loop.toGraphState
  /-- No step runs before the call. -/
  idle : ∀ id, states nodes id ≠ .running
  flying : ∀ id, id ∈ loop.inFlight ↔ loop.table id = .running
  nodup : loop.inFlight.Nodup
  bounded : loop.inFlight.length ≤ run.executor.maxConcurrency
  /-- A step that succeeded in this call has had its tool calls made. -/
  called : ∀ step ∈ run.graph.steps, loop.table step.id = .succeeded →
    states nodes step.id = .succeeded ∨ (run.runNode step).ok = true ∧
      ∀ call ∈ (run.runNode step).calls, (step.id, call) ∈ loop.calls
  /-- No other calls were made. -/
  own : ∀ id call, (id, call) ∈ loop.calls →
    ∃ step ∈ run.graph.steps, step.id = id ∧ call ∈ (run.runNode step).calls

namespace Sound

variable {loop : Loop}

theorem mem_ids (sound : Sound run nodes loop) {id : String} (flies : id ∈ loop.inFlight) :
    id ∈ run.graph.ids := by
  apply sound.tracked.accepted.mem_ids
  rw [← sound.tracked.table_eq, (sound.flying id).mp flies]
  exact (sound.idle id).symm

/-- Changes of the graph that neither start nor collect a step. -/
theorem withGraph (sound : Sound run nodes loop) {state : GraphState}
    (tracked : Tracked run nodes state)
    (running : ∀ id, state.table id = .running ↔ loop.table id = .running)
    (succeeded : ∀ id, state.table id = .succeeded → loop.table id = .succeeded) :
    Sound run nodes (loop.withGraph state) where
  tracked := tracked
  idle := sound.idle
  flying := fun id => (sound.flying id).trans (running id).symm
  nodup := sound.nodup
  bounded := sound.bounded
  called := fun step listed ended => sound.called step listed (succeeded step.id ended)
  own := sound.own

/-- A change of a step that is not in flight, without starting it. -/
theorem move (sound : Sound run nodes loop) {id : String} {target : StepState}
    (member : id ∈ run.graph.ids) (legal : target ∈ graphTransitions (loop.table id))
    (grounded : loop.table id ≠ .running) (waits : target ≠ .running)
    (unfinished : target ≠ .succeeded) : Sound run nodes (loop.move id target) := by
  refine sound.withGraph (sound.tracked.move member legal waits) ?_ ?_
  · intro other
    rw [GraphState.table_move]
    by_cases same : other = id
    · subst same
      simp [grounded, waits]
    · rw [Function.update_of_ne same]
  · intro other ended
    rw [GraphState.table_move] at ended
    by_cases same : other = id
    · rw [same, Function.update_self] at ended
      exact absurd ended unfinished
    · rwa [Function.update_of_ne same] at ended

theorem amend (sound : Sound run nodes loop) (id : String)
    (change : GraphNode → GraphNode)
    (state_eq : (change (loop.node id)).state = (loop.node id).state)
    (attempts_eq : (change (loop.node id)).attempts = (loop.node id).attempts) :
    Sound run nodes (loop.amend id change) := by
  have table_eq : (loop.amend id change).table = loop.table :=
    GraphState.table_amend _ id change state_eq
  exact {
    tracked := sound.tracked.amend id change state_eq attempts_eq
    idle := sound.idle
    flying := fun other => by rw [table_eq]; exact sound.flying other
    nodup := sound.nodup
    bounded := sound.bounded
    called := fun step listed succeeded => sound.called step listed (table_eq ▸ succeeded)
    own := sound.own }

theorem emit (sound : Sound run nodes loop) (eventType : EventType)
    (payload : List (String × Json)) : Sound run nodes (run.emit loop eventType payload) :=
  ⟨sound.tracked, sound.idle, sound.flying, sound.nodup, sound.bounded, sound.called,
    sound.own⟩

theorem persist (sound : Sound run nodes loop) : Sound run nodes (run.persist loop) :=
  ⟨sound.tracked, sound.idle, sound.flying, sound.nodup, sound.bounded, sound.called,
    sound.own⟩

end Sound

/-! ## The phases

Each phase succeeds, keeps the invariant and extends the log. What it does to the
node states is stated beside. -/

/-- A step that waits is not in flight, and may be skipped or cancelled. -/
theorem legal_of_waiting {state target : StepState} (waiting : state = .pending ∨ state = .ready)
    (ends : target = .skipped ∨ target = .cancelled) :
    target ∈ graphTransitions state ∧ state ≠ .running ∧ target ≠ .running ∧
      target ≠ .succeeded := by
  rcases waiting with rfl | rfl <;> rcases ends with rfl | rfl <;> decide

theorem stop_ok (turn : Turn) {loop : Loop} (sound : Sound run nodes loop) {step : PlanStep}
    (member : step ∈ run.graph.steps) :
    ∃ next, run.stop turn loop step = .ok next ∧ Sound run nodes next ∧
      loop.Extends next ∧ next.inFlight = loop.inFlight := by
  unfold stop
  split
  · rename_i waiting
    rcases legal_of_waiting waiting (.inr rfl) with ⟨legal, grounded, waits, unfinished⟩
    rw [Loop.transition_of_legal legal]
    refine ⟨_, rfl, ?_, ⟨⟨_, rfl⟩, rfl, rfl, rfl⟩, rfl⟩
    exact ((sound.move (TaskGraph.mem_ids member) legal grounded waits unfinished).amend
      step.id _ rfl rfl).emit _ _
  · exact ⟨loop, rfl, sound, .refl loop, rfl⟩

theorem stopUnstarted_ok (turn : Turn) {loop : Loop} (sound : Sound run nodes loop) :
    ∃ next, run.stopUnstarted turn loop = .ok next ∧ Sound run nodes next ∧
      loop.Extends next ∧ next.inFlight = loop.inFlight := by
  have all := foldlM_ok (run.stop turn) run.graph.steps loop
    (fun rest next => (∀ step ∈ rest, step ∈ run.graph.steps) ∧
      Sound run nodes next ∧ loop.Extends next ∧ next.inFlight = loop.inFlight)
    (by
      rintro step rest middle ⟨listed, kept, extends_, same⟩
      rcases stop_ok turn kept (listed step (by simp)) with
        ⟨next, stopped, sound', further, flying⟩
      exact ⟨next, stopped, fun other inside => listed other (by simp [inside]), sound',
        extends_.trans further, flying.trans same⟩)
    ⟨fun _ inside => inside, sound, .refl loop, rfl⟩
  rcases all with ⟨next, stopped, _, sound', extends_, same⟩
  exact ⟨next, stopped, sound', extends_, same⟩

/-- One step is started. -/
theorem submit_ok {loop : Loop} (sound : Sound run nodes loop) {step : PlanStep}
    (member : step ∈ run.graph.steps) (pending : loop.table step.id = .pending)
    (behind : ∀ dependency ∈ step.dependencies, loop.table dependency = .succeeded)
    (room : loop.inFlight.length < run.executor.maxConcurrency) :
    ∃ next, run.submit loop step = .ok next ∧ Sound run nodes next ∧ loop.Extends next ∧
      next.inFlight = loop.inFlight ++ [step.id] ∧
      next.table = Function.update loop.table step.id .running := by
  have readied : .ready ∈ graphTransitions (loop.table step.id) := by
    simp [pending, graphTransitions]
  have begun : .running ∈ graphTransitions
      ((run.emit (loop.move step.id .ready) .stepReady [("step_id", .str step.id)]).table
        step.id) := by
    simp [graphTransitions]
  have covers : ∀ id, Function.update loop.table step.id .running id = .running →
      id ∈ loop.inFlight ++ [step.id] := by
    intro id runs
    by_cases same : id = step.id
    · simp [same]
    · rw [Function.update_of_ne same] at runs
      simp [(sound.flying id).mpr runs]
  have fits : (loop.inFlight ++ [step.id]).length ≤ run.executor.maxConcurrency := by
    rw [List.length_append, List.length_singleton]
    exact room
  have fresh : step.id ∉ loop.inFlight := by
    rw [sound.flying, pending]
    decide
  have distinct : (loop.inFlight ++ [step.id]).Nodup :=
    List.Nodup.append sound.nodup (List.nodup_singleton step.id) (by simpa using fresh)
  have tracked := sound.tracked.start (run.attempt step.id) member pending behind
    ((Tracked.running_le covers).trans fits) (fun _ => rfl) (fun _ => rfl)
  have final : (((loop.toGraphState.move step.id .ready).move step.id .running).amend
      step.id (run.attempt step.id)).table = Function.update loop.table step.id .running := by
    rw [GraphState.table_amend _ _ _ rfl]
    simp
  unfold submit
  rw [Loop.transition_of_legal readied]
  simp only [bind, Except.bind, pure, Except.pure]
  rw [Loop.transition_of_legal begun]
  have longer := ((Loop.Extends.move loop step.id .ready).trans
    (.move (loop.move step.id .ready) step.id .running)).changes
  refine ⟨_, rfl, ⟨tracked, sound.idle, ?_, distinct, fits, ?_, sound.own⟩,
    ⟨longer, rfl, rfl, rfl⟩, rfl, final⟩
  · intro id
    refine Iff.trans ?_ (iff_of_eq (congrArg (· = StepState.running) (congrFun final id))).symm
    refine ⟨fun inside => ?_, covers id⟩
    rcases List.mem_append.mp inside with old | new
    · have different : id ≠ step.id := fun same => fresh (same ▸ old)
      rw [Function.update_of_ne different]
      exact (sound.flying id).mp old
    · rw [List.mem_singleton.mp new, Function.update_self]
  · intro other listed succeeded
    have succeeded' : Function.update loop.table step.id .running other.id = .succeeded :=
      (congrFun final other.id).symm.trans succeeded
    by_cases same : other.id = step.id
    · rw [same, Function.update_self] at succeeded'
      exact absurd succeeded' (by decide)
    · rw [Function.update_of_ne same] at succeeded'
      exact sound.called other listed succeeded'

/-- What a submission leaves of the waiting steps it was given: they stay ready. -/
def Ready (loop : Loop) (steps : List PlanStep) : Prop :=
  ∀ step ∈ steps, loop.table step.id = .pending ∧
    ∀ dependency ∈ step.dependencies, loop.table dependency = .succeeded

/-- Steps are started while there is room: some step, if one is listed and a slot is
free. -/
theorem submitAll_ok {steps : List PlanStep} {loop : Loop} (sound : Sound run nodes loop)
    (member : ∀ step ∈ steps, step ∈ run.graph.steps)
    (distinct : (steps.map (·.id)).Nodup) (ready : Ready loop steps) :
    ∃ next, run.submitAll steps loop = .ok next ∧ Sound run nodes next ∧ loop.Extends next ∧
      (next.inFlight = [] → steps = [] ∧ next = loop) ∧
      ∀ id, next.table id = loop.table id ∨
        (next.table id = .running ∧ loop.table id = .pending ∧
          ∀ dependency, run.graph.DependsOn id dependency →
            loop.table dependency = .succeeded) := by
  induction steps generalizing loop with
  | nil => exact ⟨loop, rfl, sound, .refl loop, fun _ => ⟨rfl, rfl⟩, fun _ => .inl rfl⟩
  | cons step rest induction =>
      rw [List.map_cons, List.nodup_cons] at distinct
      unfold submitAll
      split
      · rename_i full
        refine ⟨loop, rfl, sound, .refl loop, fun empty => ?_, fun _ => .inl rfl⟩
        have positive := run.executor.maxConcurrency_pos
        rw [empty, List.length_nil] at full
        omega
      · rename_i room
        have listed := member step (by simp)
        rcases ready step (by simp) with ⟨pending, behind⟩
        rcases submit_ok sound listed pending behind (not_le.mp room) with
          ⟨middle, submitted, sound', extends_, flying, table_eq⟩
        have others : ∀ id, id ≠ step.id → middle.table id = loop.table id := fun id different => by
          rw [table_eq, Function.update_of_ne different]
        have ready' : Ready middle rest := by
          intro other inside
          rcases ready other (by simp [inside]) with ⟨pending', behind'⟩
          have different : other.id ≠ step.id := fun same =>
            distinct.1 (same ▸ List.mem_map_of_mem inside)
          refine ⟨(others _ different).trans pending', fun dependency named => ?_⟩
          have apart : dependency ≠ step.id := by
            rintro rfl
            exact absurd (pending.symm.trans (behind' _ named)) (by decide)
          exact (others _ apart).trans (behind' dependency named)
        rcases induction sound' (fun other inside => member other (by simp [inside]))
          distinct.2 ready' with ⟨next, rest_, sound'', further, stays, moves⟩
        refine ⟨next, ?_, sound'', extends_.trans further, ?_, ?_⟩
        · rw [submitted]
          exact rest_
        · intro empty
          rcases stays empty with ⟨_, rfl⟩
          rw [flying] at empty
          simp at empty
        · intro id
          by_cases same : id = step.id
          · subst same
            have runs : middle.table step.id = .running := by rw [table_eq, Function.update_self]
            refine .inr ⟨?_, pending, fun dependency depends =>
              behind dependency ((TaskGraph.dependsOn_iff listed).mp depends)⟩
            rcases moves step.id with kept | ⟨_, impossible, _⟩
            · rw [kept, runs]
            · rw [runs] at impossible
              exact absurd impossible (by decide)
          · rcases moves id with kept | ⟨runs, pending', behind'⟩
            · exact .inl (kept.trans (others id same))
            · refine .inr ⟨runs, (others id same).symm.trans pending', fun dependency depends => ?_⟩
              have apart : dependency ≠ step.id := by
                rintro rfl
                have done := behind' step.id depends
                rw [table_eq, Function.update_self] at done
                exact absurd done (by decide)
              exact (others dependency apart).symm.trans (behind' dependency depends)

theorem submitReady_ok {loop : Loop} (sound : Sound run nodes loop) :
    ∃ next, run.submitReady loop = .ok next ∧ Sound run nodes next ∧ loop.Extends next ∧
      (next.inFlight = [] → loop.toGraphState.ready run.graph = [] ∧ next = loop) ∧
      ∀ id, next.table id = loop.table id ∨
        (next.table id = .running ∧ loop.table id = .pending ∧
          ∀ dependency, run.graph.DependsOn id dependency →
            loop.table dependency = .succeeded) := by
  refine submitAll_ok sound (fun step listed => (List.mem_filter.mp listed).1) ?_ ?_
  · exact (List.filter_sublist.map _).nodup run.graph.uniqueIds
  · intro step listed
    exact of_decide_eq_true (List.mem_filter.mp listed).2

theorem settlement_legal (run : Execution) (step : PlanStep) :
    (run.settlement step).1 ∈ graphTransitions .running ∧
      (run.settlement step).1 ≠ .running := by
  unfold settlement
  simp only
  split
  · simp [graphTransitions]
  · split <;> simp [graphTransitions]

theorem ok_of_settlement {step : PlanStep} (succeeded : (run.settlement step).1 = .succeeded) :
    (run.runNode step).ok = true := by
  unfold settlement at succeeded
  cases ok : (run.runNode step).ok <;> simp only [ok] at succeeded ⊢
  split at succeeded <;> simp at succeeded

/-- A step in flight is collected. -/
theorem settle_ok {loop : Loop} (sound : Sound run nodes loop) {step : PlanStep}
    (member : step ∈ run.graph.steps) (flies : step.id ∈ loop.inFlight) :
    ∃ next, run.settle loop step = .ok next ∧ Sound run nodes next ∧ loop.Extends next ∧
      next.table = Function.update loop.table step.id (run.settlement step).1 ∧
      loop.changes.length < next.changes.length := by
  have runs := (sound.flying step.id).mp flies
  rcases settlement_legal run step with ⟨legal, grounded⟩
  generalize shape : run.settlement step = settled at legal grounded
  rcases settled with ⟨target, error, eventType, payload⟩
  let popped : Loop := { loop with inFlight := loop.inFlight.erase step.id }
  let returned := run.runNode step
  let recorded := popped.amend step.id (run.record returned step.id)
  have recordedTable : recorded.table = loop.table := GraphState.table_amend _ _ _ rfl
  have legal' : target ∈ graphTransitions (recorded.table step.id) := by
    rw [recordedTable, runs]
    exact legal
  have tracked : Tracked run nodes (recorded.toGraphState.move step.id target) :=
    (sound.tracked.amend step.id (run.record returned step.id) rfl rfl).move
      (TaskGraph.mem_ids member) legal' grounded
  have movedTable : (recorded.toGraphState.move step.id target).table =
      Function.update loop.table step.id target := by
    rw [GraphState.table_move]
    exact congrArg (fun table => Function.update table step.id target) recordedTable
  have final := tracked.amend step.id
    (fun node => { node with
      error := if target = .succeeded then node.error else error }) rfl rfl
  have finalTable : ((recorded.toGraphState.move step.id target).amend step.id fun node =>
      { node with error := if target = .succeeded then node.error else error }).table =
        Function.update loop.table step.id target := by
    rw [GraphState.table_amend _ _ _ rfl, movedTable]
  have popped_flying : ∀ id, id ∈ loop.inFlight.erase step.id ↔
      Function.update loop.table step.id target id = .running := by
    intro id
    rw [sound.nodup.mem_erase_iff]
    by_cases same : id = step.id
    · simp [same, grounded]
    · rw [Function.update_of_ne same, sound.flying id]
      simp [same]
  have grows : loop.changes.length <
        (recorded.toGraphState.move step.id target).changes.length := by
    rw [GraphState.changes_move, List.length_append]
    exact Nat.lt_succ_self _
  have distinct := sound.nodup.erase step.id
  have fits := (List.length_erase_le (a := step.id) (l := loop.inFlight)).trans sound.bounded
  unfold settle
  simp only [runs, ne_eq, not_true_eq_false, if_false, shape]
  rw [Loop.transition_of_legal legal']
  refine ⟨_, rfl, ⟨final, sound.idle, ?_, distinct, fits, ?_, ?_⟩,
    ⟨⟨_, rfl⟩, rfl, rfl, rfl⟩, finalTable,
    grows⟩
  · intro id
    exact (popped_flying id).trans
      (iff_of_eq (congrArg (· = StepState.running) (congrFun finalTable id))).symm
  · intro other listed ended
    have ended' := (congrFun finalTable other.id).symm.trans ended
    by_cases same : other.id = step.id
    · have equal := TaskGraph.step_unique listed member same
      subst equal
      rw [Function.update_self] at ended'
      refine .inr ⟨ok_of_settlement (by rw [shape]; exact ended'), fun call made =>
        List.mem_append_right _ (List.mem_map_of_mem made)⟩
    · rw [Function.update_of_ne same] at ended'
      rcases sound.called other listed ended' with before | made
      · exact .inl before
      · exact .inr ⟨made.1, fun call inside => List.mem_append_left _ (made.2 call inside)⟩
  · intro id call inside
    rcases List.mem_append.mp inside with before | now
    · exact sound.own id call before
    · rcases List.mem_map.mp now with ⟨made, member', same⟩
      cases same
      exact ⟨step, member, rfl, member'⟩

/-- What collecting futures does to the states: a running step takes the state of its
own settlement. -/
def Collected (run : Execution) (before after : StateTable) : Prop :=
  ∀ id, after id = before id ∨
    (before id = .running ∧ ∃ step ∈ run.graph.steps, step.id = id ∧
      after id = (run.settlement step).1)

theorem Collected.trans {first middle last : StateTable} (front : Collected run first middle)
    (back : Collected run middle last) : Collected run first last := by
  intro id
  rcases front id with kept | ⟨runs, step, listed, same, settled⟩
  · rcases back id with kept' | ⟨runs', other⟩
    · exact .inl (kept'.trans kept)
    · exact .inr ⟨kept.symm.trans runs', other⟩
  · rcases back id with kept' | ⟨runs', _⟩
    · exact .inr ⟨runs, step, listed, same, kept'.trans settled⟩
    · exact absurd (settled.symm.trans runs') (settlement_legal run step).2

theorem collect_ok {loop : Loop} (sound : Sound run nodes loop) (id : String) :
    ∃ next, run.collect loop id = .ok next ∧ Sound run nodes next ∧ loop.Extends next ∧
      Collected run loop.table next.table ∧
      (id ∈ loop.inFlight → loop.changes.length < next.changes.length) ∧
      (id ∉ loop.inFlight → next = loop) := by
  unfold collect
  cases found : run.graph.steps.find? (·.id = id) with
  | none =>
      refine ⟨loop, rfl, sound, .refl loop, fun _ => .inl rfl, fun flies => ?_, fun _ => rfl⟩
      rcases TaskGraph.exists_step (sound.mem_ids flies) with ⟨step, listed, same⟩
      exact absurd same (by simpa using List.find?_eq_none.mp found step listed)
  | some step =>
      have listed := List.mem_of_find?_eq_some found
      obtain rfl : step.id = id := by simpa using List.find?_some found
      by_cases flies : step.id ∈ loop.inFlight
      · rcases settle_ok sound listed flies with
          ⟨next, settled, sound', extends_, table_eq, grows⟩
        refine ⟨next, by simpa [flies] using settled, sound', extends_, ?_, fun _ => grows,
          fun away => absurd flies away⟩
        intro other
        by_cases same : other = step.id
        · subst same
          exact .inr ⟨(sound.flying step.id).mp flies, step, listed, rfl,
            by rw [table_eq, Function.update_self]⟩
        · exact .inl (by rw [table_eq, Function.update_of_ne same])
      · exact ⟨loop, by simp [flies], sound, .refl loop, fun _ => .inl rfl,
          fun inside => absurd inside flies, fun _ => rfl⟩

theorem collectCompleted_ok (turn : Turn) {loop : Loop} (sound : Sound run nodes loop) :
    ∃ next, run.collectCompleted turn loop = .ok next ∧ Sound run nodes next ∧
      loop.Extends next ∧ Collected run loop.table next.table ∧
      ((∃ id ∈ loop.inFlight, id ∈ turn.completed) →
        loop.changes.length < next.changes.length) := by
  have all := foldlM_ok run.collect turn.completed loop
    (fun rest next => Sound run nodes next ∧ loop.Extends next ∧
      Collected run loop.table next.table ∧
      ∀ id ∈ loop.inFlight, id ∈ turn.completed →
        loop.changes.length < next.changes.length ∨ (next = loop ∧ id ∈ rest))
    (by
      rintro item rest middle ⟨kept, extends_, collected, due⟩
      rcases collect_ok kept item with ⟨next, done, sound', further, moves, grows, stays⟩
      refine ⟨next, done, sound', extends_.trans further, collected.trans moves, ?_⟩
      intro id flies reported
      have longer := further.changes.length_le
      rcases due id flies reported with grown | ⟨rfl, waits⟩
      · exact .inl (by omega)
      · by_cases now : item ∈ middle.inFlight
        · exact .inl (grows now)
        · rcases List.mem_cons.mp waits with rfl | later
          · exact absurd flies now
          · exact .inr ⟨stays now, later⟩)
    ⟨sound, .refl loop, fun _ => .inl rfl, fun id _ reported => .inr ⟨rfl, reported⟩⟩
  rcases all with ⟨next, done, sound', extends_, collected, due⟩
  refine ⟨next, done, sound', extends_, collected, ?_⟩
  rintro ⟨id, flies, reported⟩
  rcases due id flies reported with grown | ⟨_, impossible⟩
  · exact grown
  · exact absurd impossible (by simp)

/-- What skipping does to the states: a pending step with a dependency that ended
without success is skipped. -/
def SkippedBehind (run : Execution) (before after : StateTable) : Prop :=
  ∀ id, after id = before id ∨
    (after id = .skipped ∧ before id = .pending ∧
      ∃ dependency, run.graph.DependsOn id dependency ∧ after dependency ∈ nonSuccessTerminal)

theorem skipUnsatisfiable_step {state initial : GraphState} (skipped : List String)
    (tracked : Tracked run nodes state) {step : PlanStep} (member : step ∈ run.graph.steps)
    (extends_ : initial.changes <+: state.changes)
    (behind : SkippedBehind run initial.table state.table) :
    ∃ next more, GraphState.skipUnsatisfiable (state, skipped) step = .ok (next, more) ∧
      Tracked run nodes next ∧ initial.changes <+: next.changes ∧
      SkippedBehind run initial.table next.table := by
  unfold GraphState.skipUnsatisfiable
  by_cases waits : state.table step.id = .pending
  · cases found : state.badDependency step with
    | none => exact ⟨state, skipped, by simp [waits, found], tracked, extends_, behind⟩
    | some bad =>
        have named := List.mem_of_find?_eq_some found
        have ended : state.table bad ∈ nonSuccessTerminal :=
          of_decide_eq_true (List.find?_some
            (p := fun dependency => state.table dependency ∈ nonSuccessTerminal) found)
        have legal : .skipped ∈ graphTransitions (state.table step.id) := by
          simp [waits, graphTransitions]
        let next := (state.move step.id .skipped).amend step.id fun node =>
          { node with
            error := "dependency " ++ Text.repr bad ++ " ended " ++ (state.table bad).value ++
              "; not executed" }
        have table_eq : next.table = Function.update state.table step.id .skipped :=
          (GraphState.table_amend _ _ _ rfl).trans (GraphState.table_move ..)
        refine ⟨next, skipped ++ [step.id], ?_, ?_, extends_.trans ⟨_, rfl⟩, ?_⟩
        · simp only [waits, found, ne_eq, not_true_eq_false, if_false]
          rw [GraphState.transition_of_legal legal]
          rfl
        · exact (tracked.move (TaskGraph.mem_ids member) legal (by decide)).amend _ _ rfl rfl
        · have apart : ∀ other, state.table other ≠ .pending →
              next.table other = state.table other := by
            intro other open'
            have different : other ≠ step.id := fun same => open' (same ▸ waits)
            rw [table_eq, Function.update_of_ne different]
          have kept : ∀ other, state.table other ∈ nonSuccessTerminal →
              next.table other ∈ nonSuccessTerminal := by
            intro other terminal
            rw [apart other (fun pending => by simp [pending, nonSuccessTerminal] at terminal)]
            exact terminal
          intro id
          by_cases same : id = step.id
          · subst same
            refine .inr ⟨by rw [table_eq, Function.update_self], ?_, bad,
              (TaskGraph.dependsOn_iff member).mpr named, kept bad ended⟩
            rcases behind step.id with before | ⟨gone, _⟩
            · rw [← before, waits]
            · exact absurd (waits.symm.trans gone) (by decide)
          · have unchanged : next.table id = state.table id := by
              rw [table_eq, Function.update_of_ne same]
            rcases behind id with before | ⟨gone, pending, dependency, depends, terminal⟩
            · exact .inl (unchanged.trans before)
            · exact .inr ⟨unchanged.trans gone, pending, dependency, depends,
                kept dependency terminal⟩
  · exact ⟨state, skipped, by simp [waits], tracked, extends_, behind⟩

theorem markUnsatisfiable_ok {state : GraphState} (tracked : Tracked run nodes state) :
    ∃ next skipped, state.markUnsatisfiable run.graph = .ok (next, skipped) ∧
      Tracked run nodes next ∧ state.changes <+: next.changes ∧
      SkippedBehind run state.table next.table := by
  have all := foldlM_ok GraphState.skipUnsatisfiable run.graph.steps
    (state, ([] : List String))
    (fun rest current => (∀ step ∈ rest, step ∈ run.graph.steps) ∧
      Tracked run nodes current.1 ∧ state.changes <+: current.1.changes ∧
      SkippedBehind run state.table current.1.table)
    (by
      rintro step rest ⟨middle, skipped⟩ ⟨listed, kept, extends_, behind⟩
      rcases skipUnsatisfiable_step skipped kept (listed step (by simp)) extends_
        behind with ⟨next, more, done, kept', further, behind'⟩
      exact ⟨(next, more), done, fun other inside => listed other (by simp [inside]), kept',
        further, behind'⟩)
    ⟨fun _ inside => inside, tracked, List.prefix_rfl, fun _ => .inl rfl⟩
  rcases all with ⟨⟨next, skipped⟩, done, _, kept, extends_, behind⟩
  exact ⟨next, skipped, done, kept, extends_, behind⟩

/-- An event for each of the steps, in their order. -/
theorem foldl_emit (run : Execution) (loop : Loop) (eventType : EventType) (ids : List String)
    (payload : Loop → String → List (String × Json)) :
    ∃ payloads : List (List (String × Json)),
      ids.foldl (fun loop id => run.emit loop eventType (payload loop id)) loop =
        { loop with
          events := loop.events ++ payloads.map fun payload =>
            { eventType, taskId := run.taskId, payload } } ∧
      List.Forall₂ (fun id given => ∃ loop, given = payload loop id) ids payloads := by
  induction ids generalizing loop with
  | nil => exact ⟨[], by rw [List.map_nil, List.append_nil]; rfl, .nil⟩
  | cons id rest induction =>
      rcases induction (run.emit loop eventType (payload loop id)) with ⟨payloads, same, given⟩
      refine ⟨payload loop id :: payloads, ?_, .cons ⟨loop, rfl⟩ given⟩
      rw [List.foldl_cons, same, List.map_cons, List.append_cons]
      rfl

theorem skipUnsatisfiable_ok {loop : Loop} (sound : Sound run nodes loop) :
    ∃ next, run.skipUnsatisfiable loop = .ok next ∧ Sound run nodes next ∧
      loop.Extends next ∧ next.inFlight = loop.inFlight ∧
      SkippedBehind run loop.table next.table := by
  rcases markUnsatisfiable_ok sound.tracked with
    ⟨state, skipped, done, tracked, extends_, behind⟩
  rcases foldl_emit run (loop.withGraph state) .stepSkipped skipped
    (fun loop id => [("step_id", .str id), ("error", .str (loop.node id).error)]) with
    ⟨payloads, emitted, _⟩
  have sound' : Sound run nodes (loop.withGraph state) := by
    refine sound.withGraph tracked ?_ ?_
    · intro id
      rcases behind id with kept | ⟨gone, pending, _⟩
      · rw [kept]
      · rw [gone, pending]
        decide
    · intro id ended
      rcases behind id with kept | ⟨gone, _⟩
      · rw [← kept, ended]
      · exact absurd (gone.symm.trans ended) (by decide)
  unfold skipUnsatisfiable
  rw [done]
  refine ⟨_, congrArg Except.ok emitted, ?_, ⟨extends_, rfl, rfl, rfl⟩, rfl, behind⟩
  exact ⟨sound'.tracked, sound'.idle, sound'.flying, sound'.nodup, sound'.bounded, sound'.called,
    sound'.own⟩

def Waiting (state : StepState) : Prop := state = .pending ∨ state = .ready

instance (state : StepState) : Decidable (Waiting state) :=
  inferInstanceAs (Decidable (_ ∨ _))

/-- One stuck step is skipped. -/
theorem drain_ok {loop : Loop} (sound : Sound run nodes loop) {step : PlanStep}
    (member : step ∈ run.graph.steps) (waits : Waiting (loop.table step.id)) :
    Sound run nodes (run.drain loop step) ∧ loop.Extends (run.drain loop step) ∧
      (run.drain loop step).inFlight = loop.inFlight ∧
      (run.drain loop step).table = Function.update loop.table step.id .skipped ∧
      loop.changes.length < (run.drain loop step).changes.length := by
  rcases legal_of_waiting waits (.inl rfl) with ⟨legal, grounded, notRunning, unfinished⟩
  have moved := sound.move (TaskGraph.mem_ids member) legal grounded notRunning unfinished
  unfold drain
  rw [Loop.transition_of_legal legal]
  refine ⟨(moved.amend step.id _ rfl rfl).emit _ _, ⟨⟨_, rfl⟩, rfl, rfl, rfl⟩, rfl, ?_, ?_⟩
  · exact Eq.trans (GraphState.table_amend (loop.toGraphState.move step.id .skipped) step.id
      (fun node => { node with error := "unsatisfiable dependencies; skipped defensively" })
      rfl) (GraphState.table_move ..)
  · change _ < (loop.changes ++ [_]).length
    simp

/-- What draining does to the states: every waiting step is skipped. -/
def Drained (run : Execution) (before after : StateTable) : Prop :=
  ∀ id, (id ∈ run.graph.ids ∧ after id = .skipped ∧ Waiting (before id)) ∨
    (after id = before id ∧ (id ∈ run.graph.ids → ¬ Waiting (before id)))

theorem drainAll_ok {steps : List PlanStep} {loop : Loop} (sound : Sound run nodes loop)
    (member : ∀ step ∈ steps, step ∈ run.graph.steps)
    (distinct : (steps.map (·.id)).Nodup)
    (waits : ∀ step ∈ steps, Waiting (loop.table step.id)) :
    Sound run nodes (steps.foldl run.drain loop) ∧
      loop.Extends (steps.foldl run.drain loop) ∧
      (steps.foldl run.drain loop).inFlight = loop.inFlight ∧
      (∀ id, (steps.foldl run.drain loop).table id =
        if id ∈ steps.map (·.id) then .skipped else loop.table id) ∧
      (steps ≠ [] → loop.changes.length < (steps.foldl run.drain loop).changes.length) := by
  induction steps generalizing loop with
  | nil => exact ⟨sound, .refl loop, rfl, fun _ => rfl, fun none => absurd rfl none⟩
  | cons step rest induction =>
      rw [List.map_cons, List.nodup_cons] at distinct
      rcases drain_ok sound (member step (by simp)) (waits step (by simp)) with
        ⟨sound', extends_, flying, table_eq, grows⟩
      have others : ∀ id, id ≠ step.id → (run.drain loop step).table id = loop.table id :=
        fun id different => by rw [table_eq, Function.update_of_ne different]
      have waits' : ∀ other ∈ rest, Waiting ((run.drain loop step).table other.id) := by
        intro other inside
        have different : other.id ≠ step.id := fun same =>
          distinct.1 (same ▸ List.mem_map_of_mem inside)
        rw [others _ different]
        exact waits other (by simp [inside])
      rcases induction sound' (fun other inside => member other (by simp [inside]))
        distinct.2 waits' with ⟨sound'', further, flying', tables, _⟩
      have longer := further.changes.length_le
      refine ⟨sound'', extends_.trans further, flying'.trans flying, ?_, fun _ => by
        rw [List.foldl_cons]
        omega⟩
      intro id
      rw [List.foldl_cons, tables id]
      by_cases same : id = step.id
      · subst same
        simp [distinct.1, table_eq]
      · simp [same, others id same]

/-- With nothing in flight, a graph that has nothing to drain is done. -/
theorem drainStuck_ok {loop : Loop} (sound : Sound run nodes loop) (empty : loop.inFlight = []) :
    (run.drainStuck loop = none ∧ loop.done run.graph = true) ∨
      ∃ next, run.drainStuck loop = some next ∧ Sound run nodes next ∧ loop.Extends next ∧
        next.inFlight = [] ∧ Drained run loop.table next.table ∧
        loop.changes.length < next.changes.length := by
  by_cases nothing : run.stuck loop = [] ∨ loop.done run.graph = true
  · left
    refine ⟨if_pos nothing, ?_⟩
    rcases nothing with none | done
    · simp only [GraphState.done, List.all_eq_true, decide_eq_true_eq]
      intro step listed
      have grounded : loop.table step.id ≠ .running := fun runs => by
        have flies := (sound.flying step.id).mpr runs
        simp [empty] at flies
      have moved : ¬ Waiting (loop.table step.id) := fun waits => by
        have inside : step ∈ run.stuck loop :=
          List.mem_filter.mpr ⟨listed, decide_eq_true waits⟩
        simp [none] at inside
      cases state : loop.table step.id <;>
        simp_all [terminalStepStates, Waiting]
    · exact done
  · right
    have stuckSteps : ∀ step ∈ run.stuck loop,
        step ∈ run.graph.steps ∧ Waiting (loop.table step.id) := by
      intro step inside
      rcases List.mem_filter.mp inside with ⟨listed, waits⟩
      exact ⟨listed, of_decide_eq_true waits⟩
    rcases drainAll_ok sound (fun step inside => (stuckSteps step inside).1)
      ((List.filter_sublist.map _).nodup run.graph.uniqueIds)
      (fun step inside => (stuckSteps step inside).2) with
      ⟨sound', extends_, flying, tables, grows⟩
    refine ⟨_, if_neg nothing, sound', extends_, flying.trans empty, ?_, grows ?_⟩
    · intro id
      rw [tables id]
      by_cases inside : id ∈ (run.stuck loop).map (·.id)
      · rcases List.mem_map.mp inside with ⟨step, listed, rfl⟩
        exact .inl ⟨TaskGraph.mem_ids (stuckSteps step listed).1, if_pos inside,
          (stuckSteps step listed).2⟩
      · refine .inr ⟨if_neg inside, fun listed waits => inside ?_⟩
        rcases TaskGraph.exists_step listed with ⟨step, member, rfl⟩
        exact List.mem_map_of_mem (List.mem_filter.mpr ⟨member, decide_eq_true waits⟩)
    · exact fun none => nothing (.inl none)

/-! ## The loop -/

/-- The loop stands still only on a finished graph. -/
structure Steady (run : Execution) (nodes : String → GraphNode) (loop : Loop) : Prop
    extends Sound run nodes loop where
  broke_done : loop.broke = true → loop.done run.graph = true

theorem stopPhase_ok (turn : Turn) {loop : Loop} (sound : Sound run nodes loop) :
    ∃ next, run.stopPhase turn loop = .ok next ∧ Sound run nodes next ∧ loop.Extends next ∧
      next.inFlight = loop.inFlight := by
  unfold stopPhase
  split
  · exact stopUnstarted_ok turn sound
  · exact ⟨loop, rfl, sound, .refl loop, rfl⟩

theorem submitPhase_ok (turn : Turn) {loop : Loop} (sound : Sound run nodes loop) :
    ∃ next, run.submitPhase turn loop = .ok next ∧ Sound run nodes next ∧ loop.Extends next ∧
      ∀ id ∈ loop.inFlight, id ∈ next.inFlight := by
  unfold submitPhase
  split
  · rcases submitReady_ok sound with ⟨next, submitted, sound', extends_, _, moves⟩
    refine ⟨next, submitted, sound', extends_, fun id flies => ?_⟩
    rw [sound'.flying]
    rcases moves id with kept | ⟨runs, _⟩
    · rw [kept]
      exact (sound.flying id).mp flies
    · exact runs
  · exact ⟨loop, rfl, sound, .refl loop, fun _ flies => flies⟩

theorem drainPhase_ok {loop : Loop} (sound : Sound run nodes loop) (running : loop.broke = false)
    (empty : loop.inFlight = []) :
    Steady run nodes (run.drainPhase loop) ∧ loop.changes <+: (run.drainPhase loop).changes ∧
      ((run.drainPhase loop).saved = loop.saved ∨
        (run.drainPhase loop).saved =
          (run.drainPhase loop).toGraphState.snapshot run.graph) ∧
      (loop.changes.length < (run.drainPhase loop).changes.length ∨
        run.finished (run.drainPhase loop) = true) ∧
      (run.drainPhase loop).halting = loop.halting ∧
      ((run.drainPhase loop).table = loop.table ∨
        Drained run loop.table (run.drainPhase loop).table) := by
  unfold drainPhase
  rcases drainStuck_ok sound empty with ⟨none, done⟩ |
    ⟨drained, some_, sound', further, _, skips, grows⟩
  · rw [none]
    exact ⟨⟨⟨sound.tracked, sound.idle, sound.flying, sound.nodup, sound.bounded,
      sound.called, sound.own⟩, fun _ => done⟩, List.prefix_rfl, .inl rfl,
      .inr (by simp [finished]), rfl,
      .inl rfl⟩
  · rw [some_]
    refine ⟨⟨sound'.persist, fun broke => ?_⟩, further.changes, .inr rfl, .inl grows,
      further.halting, .inr skips⟩
    exact absurd ((further.broke.trans running).symm.trans broke) (by decide)

theorem collectPhase_ok (turn : Turn) {loop : Loop} (sound : Sound run nodes loop)
    (running : loop.broke = false) :
    ∃ next, run.collectPhase turn loop = .ok next ∧ Steady run nodes next ∧
      loop.changes <+: next.changes ∧
      next.saved = next.toGraphState.snapshot run.graph ∧
      ((∃ id ∈ loop.inFlight, id ∈ turn.completed) →
        loop.changes.length < next.changes.length) ∧
      (run.executor.failurePolicy = .continueIndependent → next.halting = loop.halting) ∧
      ∃ middle, Collected run loop.table middle ∧ SkippedBehind run middle next.table := by
  rcases collectCompleted_ok turn sound with
    ⟨collected, collected_eq, collectedSound, collectedExtends, settles, grows⟩
  rcases skipUnsatisfiable_ok collectedSound with
    ⟨skipped, skipped_eq, skippedSound, skippedExtends, _, skips⟩
  have extends_ := collectedExtends.trans skippedExtends
  unfold collectPhase
  simp only [collected_eq, skipped_eq, bind, Except.bind]
  refine ⟨_, rfl, ⟨⟨skippedSound.tracked, skippedSound.idle, skippedSound.flying,
    skippedSound.nodup, skippedSound.bounded, skippedSound.called,
    skippedSound.own⟩, fun broke => ?_⟩,
    extends_.changes, rfl, fun due => ?_, fun policy => ?_, _, settles, skips⟩
  · exact absurd ((extends_.broke.trans running).symm.trans broke) (by decide)
  · exact lt_of_lt_of_le (grows due) skippedExtends.changes.length_le
  · change (skipped.halting || _) = loop.halting
    rw [extends_.halting, policy]
    simp

/-- The same log leads to the same steps in flight. -/
theorem Sound.flying_of_changes_eq {loop next : Loop} (sound : Sound run nodes loop)
    (sound' : Sound run nodes next) (same : next.changes = loop.changes) (id : String) :
    id ∈ next.inFlight ↔ id ∈ loop.inFlight := by
  rw [sound.flying, sound'.flying, sound.tracked.table_eq, sound'.tracked.table_eq, same]

/-- What one turn does to a loop that goes on: it succeeds, and the log grows unless
no step in flight was done. -/
theorem iterate_ok (turn : Turn) {loop : Loop} (steady : Steady run nodes loop)
    (goesOn : run.finished loop = false) :
    ∃ next, run.iterate turn loop = .ok next ∧ Steady run nodes next ∧
      loop.changes <+: next.changes ∧
      (next.saved = loop.saved ∨ next.saved = next.toGraphState.snapshot run.graph) ∧
      (loop.inFlight = [] ∨ (∃ id ∈ loop.inFlight, id ∈ turn.completed) →
        loop.changes.length < next.changes.length ∨ run.finished next = true) := by
  have running : loop.broke = false := by
    simp only [finished, Bool.or_eq_false_iff] at goesOn
    exact goesOn.2
  rcases stopPhase_ok turn steady.toSound with
    ⟨stopped, stopped_eq, stoppedSound, stoppedExtends, stoppedFlying⟩
  rcases submitPhase_ok turn stoppedSound with
    ⟨started, started_eq, startedSound, startedExtends, startedFlying⟩
  have extends_ := stoppedExtends.trans startedExtends
  have longer := extends_.changes.length_le
  have running' := extends_.broke.trans running
  unfold iterate
  simp only [stopped_eq, started_eq, bind, Except.bind]
  split
  · rename_i empty
    rcases drainPhase_ok startedSound running' empty with ⟨steady', further, saved, grows, _⟩
    refine ⟨_, rfl, steady', extends_.changes.trans further, ?_, fun _ => ?_⟩
    · exact saved.imp (fun same => same.trans extends_.saved) id
    · exact grows.imp (fun more => lt_of_le_of_lt longer more) id
  · rename_i flying
    rcases collectPhase_ok turn startedSound running' with
      ⟨next, next_eq, steady', further, saved, grows, _⟩
    refine ⟨next, next_eq, steady', extends_.changes.trans further, .inr saved,
      fun due => .inl ?_⟩
    rcases due with none | ⟨id, flies, reported⟩
    · -- Nothing was in flight, so a step that is in flight now was started in this turn.
      apply lt_of_not_ge
      intro short
      have later := further.length_le
      have same := (extends_.changes.eq_of_length_le (by omega)).symm
      rcases List.exists_mem_of_ne_nil _ flying with ⟨id, flies⟩
      have before := (steady.toSound.flying_of_changes_eq startedSound same id).mp flies
      simp [none] at before
    · have inside := startedFlying id (stoppedFlying ▸ flies)
      exact lt_of_le_of_lt longer (grows ⟨id, inside, reported⟩)

end Execution

end Raphael.Agent.Executor
