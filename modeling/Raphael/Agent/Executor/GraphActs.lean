import Raphael.Agent.Executor.LoopPhases

/-! # What the loop does to the graph

Every phase of a turn is made of four kinds of acts on the nodes, and each phase moves
nodes to some states only. -/

namespace Raphael.Agent.Executor

open Core Foundation

inductive Act
  | move (id : String) (target : StepState)
  | mark (id : String) (error : String)
  | attempt (id : String)
  | record (step : PlanStep)

namespace Execution

variable {run : Execution}

def act (run : Execution) (state : GraphState) : Act → GraphState
  | .move id target => state.move id target
  | .mark id error => state.amend id fun node => { node with error }
  | .attempt id => state.amend id (run.attempt id)
  | .record step => state.amend step.id (run.record (run.runNode step) step.id)

/-- Moves lead to the given states, and what is recorded is of a step of the graph. -/
def Allows (run : Execution) (targets : List StepState) : Act → Prop
  | .move _ target => target ∈ targets
  | .record step => step ∈ run.graph.steps
  | .mark _ _ => True
  | .attempt _ => True

/-- One graph comes from another by acts that move nodes to the given states only. -/
def Acts (run : Execution) (targets : List StepState) (before after : GraphState) : Prop :=
  ∃ acts : List Act,
    (∀ act ∈ acts, run.Allows targets act) ∧ after = acts.foldl run.act before

namespace Acts

variable {targets : List StepState} {before after : GraphState}

theorem refl (targets : List StepState) (state : GraphState) : run.Acts targets state state :=
  ⟨[], by simp, rfl⟩

theorem single (act : Act) (allowed : run.Allows targets act) :
    run.Acts targets before (run.act before act) :=
  ⟨[act], List.forall_mem_singleton.mpr allowed, rfl⟩

theorem trans {middle : GraphState} (front : run.Acts targets before middle)
    (back : run.Acts targets middle after) : run.Acts targets before after := by
  rcases front with ⟨acts, allowed, rfl⟩
  rcases back with ⟨more, allowedMore, rfl⟩
  refine ⟨acts ++ more, ?_, by rw [List.foldl_append]⟩
  exact List.forall_mem_append.mpr ⟨allowed, allowedMore⟩

theorem mono {more : List StepState} (inside : targets ⊆ more)
    (acts : run.Acts targets before after) : run.Acts more before after := by
  rcases acts with ⟨acts, allowed, rfl⟩
  refine ⟨acts, fun act member => ?_, rfl⟩
  have allows := allowed act member
  cases act with
  | move id target => exact inside allows
  | mark id error => trivial
  | attempt id => trivial
  | record step => exact allows

/-- The log grows by changes to the given states. -/
theorem changes (acts : run.Acts targets before after) :
    ∃ added, after.changes = before.changes ++ added ∧
      ∀ change ∈ added, change.target ∈ targets := by
  rcases acts with ⟨acts, allowed, rfl⟩
  induction acts generalizing before with
  | nil => exact ⟨[], by simp, by simp⟩
  | cons act rest induction =>
      rw [List.forall_mem_cons] at allowed
      rcases @induction (run.act before act) allowed.2 with ⟨added, grown, inside⟩
      cases act with
      | move id target =>
          refine ⟨⟨id, before.table id, target⟩ :: added, ?_, ?_⟩
          · rw [List.foldl_cons, grown]
            exact List.append_cons .. |>.symm
          · exact List.forall_mem_cons.mpr ⟨allowed.1, inside⟩
      | mark id error => exact ⟨added, grown, inside⟩
      | attempt id => exact ⟨added, grown, inside⟩
      | record step => exact ⟨added, grown, inside⟩

/-- A node keeps its state or is moved to one of the given states. -/
theorem table_cases (acts : run.Acts targets before after) (id : String) :
    after.table id = before.table id ∨ after.table id ∈ targets := by
  rcases acts with ⟨acts, allowed, rfl⟩
  induction acts generalizing before with
  | nil => exact .inl rfl
  | cons act rest induction =>
      rw [List.forall_mem_cons] at allowed
      rcases @induction (run.act before act) allowed.2 with same | moved
      · rw [List.foldl_cons, same]
        cases act with
        | move other target =>
            by_cases mine : id = other
            · subst mine
              right
              simpa [act, Allows] using allowed.1
            · left
              simp [act, Function.update_of_ne mine]
        | mark other error =>
            exact .inl (congrFun
              (GraphState.table_amend before other (fun node => { node with error }) rfl) id)
        | attempt other => exact .inl (congrFun (GraphState.table_amend before other _ rfl) id)
        | record step => exact .inl (congrFun (GraphState.table_amend before step.id _ rfl) id)
      · exact .inr moved

/-- What each kind of act keeps of a node holds of every node. -/
theorem keeps {Holds : GraphNode → Prop}
    (state : ∀ node state, Holds node → Holds { node with state })
    (error : ∀ node error, Holds node → Holds { node with error })
    (attempt : ∀ id node, Holds node → Holds (run.attempt id node))
    (record : ∀ step ∈ run.graph.steps, ∀ node, Holds node →
      Holds (run.record (run.runNode step) step.id node))
    (acts : run.Acts targets before after) (holds : ∀ id, Holds (before.node id)) :
    ∀ id, Holds (after.node id) := by
  have amended : ∀ (graph : GraphState) (id : String) (change : GraphNode → GraphNode),
      (∀ node, Holds node → Holds (change node)) → (∀ id, Holds (graph.node id)) →
      ∀ other, Holds (Function.update graph.node id (change (graph.node id)) other) := by
    intro graph id change keeps holds other
    by_cases same : other = id
    · subst same
      rw [Function.update_self]
      exact keeps _ (holds other)
    · rw [Function.update_of_ne same]
      exact holds other
  rcases acts with ⟨acts, allowed, rfl⟩
  induction acts generalizing before with
  | nil => exact holds
  | cons act rest induction =>
      rw [List.forall_mem_cons] at allowed
      refine induction ?_ allowed.2
      cases act with
      | move id target => exact amended before id _ (fun node => state node target) holds
      | mark id text => exact amended before id _ (fun node => error node text) holds
      | attempt id => exact amended before id _ (attempt id) holds
      | record step => exact amended before step.id _ (record step allowed.1) holds

end Acts

/-! ## The phases -/

variable {loop after : Loop} {turn : Turn} {step : PlanStep}

/-- A node that is moved and given an error. -/
private theorem acts_leave (state : GraphState) (id : String) (target : StepState)
    (error : String) :
    run.Acts [target] state ((state.move id target).amend id fun node => { node with error }) :=
  (Acts.single (.move id target) List.mem_cons_self).trans
    (Acts.single (.mark id error) trivial)

theorem stop_acts (done : run.stop turn loop step = .ok after) :
    run.Acts [.cancelled] loop.toGraphState after.toGraphState := by
  rcases stop_cases done with ⟨_, rfl⟩ | ⟨_, rfl⟩
  · exact .refl _ _
  · exact acts_leave _ _ _ _

theorem stopAll_acts {steps : List PlanStep}
    (done : steps.foldlM (run.stop turn) loop = .ok after) :
    run.Acts [.cancelled] loop.toGraphState after.toGraphState := by
  apply foldlM_keeps
    (fun next : Loop => run.Acts [.cancelled] loop.toGraphState next.toGraphState) _
    (.refl _ _) done
  intro step _ middle next acts stopped
  exact acts.trans (stop_acts stopped)

theorem stopPhase_acts (done : run.stopPhase turn loop = .ok after) :
    run.Acts [.cancelled] loop.toGraphState after.toGraphState := by
  apply stopPhase_keeps
    (fun next => run.Acts [.cancelled] loop.toGraphState next.toGraphState) _ (.refl _ _) done
  intro step middle next acts stopped
  exact acts.trans (stop_acts stopped)

theorem submit_acts (done : run.submit loop step = .ok after) :
    run.Acts [.ready, .running] loop.toGraphState after.toGraphState := by
  rcases submit_cases done with ⟨_, _, rfl, rfl⟩
  have readies : run.Acts [.ready, .running] loop.toGraphState
      (loop.toGraphState.move step.id .ready) :=
    .single (.move step.id .ready) (by simp [Allows])
  have starts : run.Acts [.ready, .running] (loop.toGraphState.move step.id .ready)
      ((loop.toGraphState.move step.id .ready).move step.id .running) :=
    .single (.move step.id .running) (by simp [Allows])
  exact (readies.trans starts).trans (.single (.attempt step.id) trivial)

theorem submitAll_acts {steps : List PlanStep} (done : run.submitAll steps loop = .ok after) :
    run.Acts [.ready, .running] loop.toGraphState after.toGraphState := by
  apply submitAll_keeps
    (fun next => run.Acts [.ready, .running] loop.toGraphState next.toGraphState) _
    (.refl _ _) done
  intro step middle next acts submitted
  exact acts.trans (submit_acts submitted)

theorem submitPhase_acts (done : run.submitPhase turn loop = .ok after) :
    run.Acts [.ready, .running] loop.toGraphState after.toGraphState := by
  apply submitPhase_keeps
    (fun next => run.Acts [.ready, .running] loop.toGraphState next.toGraphState) _
    (.refl _ _) done
  intro step middle next acts submitted
  exact acts.trans (submit_acts submitted)

/-- A step that ends well keeps its error. -/
private theorem acts_conclude (targets : List StepState) (state : GraphState) (id : String)
    (target : StepState) (error : String) :
    run.Acts targets state (state.amend id fun node =>
      { node with error := if target = .succeeded then node.error else error }) := by
  by_cases succeeded : target = .succeeded
  · simp only [succeeded, if_true]
    have same : state.amend id (fun node => node) = state := by
      unfold GraphState.amend
      rw [Function.update_eq_self]
    rw [same]
    exact .refl targets state
  · simp only [succeeded, if_false]
    exact .single (.mark id error) trivial

theorem settle_acts (listed : step ∈ run.graph.steps)
    (done : run.settle loop step = .ok after) :
    run.Acts (graphTransitions .running) loop.toGraphState after.toGraphState := by
  rcases settle_cases done with rfl | ⟨_, target, error, _, _, settled, rfl⟩
  · exact .refl _ _
  · have legal := (settlement_legal run step).1
    rw [settled] at legal
    have recorded : run.Acts (graphTransitions .running) loop.toGraphState
        ((loop.toGraphState.amend step.id
          (run.record (run.runNode step) step.id)).move step.id target) :=
      (Acts.single (.record step) listed).trans (.single (.move step.id target) legal)
    exact recorded.trans (acts_conclude _ _ step.id target error)

theorem collectCompleted_acts (done : run.collectCompleted turn loop = .ok after) :
    run.Acts (graphTransitions .running) loop.toGraphState after.toGraphState := by
  apply collectCompleted_keeps (fun next =>
    run.Acts (graphTransitions .running) loop.toGraphState next.toGraphState) _
    (.refl _ _) done
  intro step listed middle next acts settled
  exact acts.trans (settle_acts listed settled)

theorem skipStep_acts {state next : GraphState} {skipped more : List String}
    (done : GraphState.skipUnsatisfiable (state, skipped) step = .ok (next, more)) :
    run.Acts [.skipped] state next := by
  rcases skipStep_cases done with ⟨rfl, _⟩ | ⟨_, _, _, _, _, _, rfl⟩
  · exact .refl _ _
  · exact acts_leave _ _ _ _

theorem skipUnsatisfiable_acts (done : run.skipUnsatisfiable loop = .ok after) :
    run.Acts [.skipped] loop.toGraphState after.toGraphState := by
  rcases skipUnsatisfiable_cases done with ⟨state, skipped, _, marked, _, rfl⟩
  apply foldlM_keeps (fun answer : GraphState × List String =>
    run.Acts [.skipped] loop.toGraphState answer.1) _ (.refl _ _) marked
  rintro step _ ⟨state, skipped⟩ ⟨next, more⟩ acts skips
  exact acts.trans (skipStep_acts skips)

theorem drain_acts (loop : Loop) (step : PlanStep) :
    run.Acts [.skipped] loop.toGraphState (run.drain loop step).toGraphState := by
  rcases drain_cases run loop step with same | drained
  · rw [same]
    exact .refl _ _
  · rw [drained]
    exact acts_leave _ _ _ _

theorem drainAll_acts (steps : List PlanStep) (loop : Loop) :
    run.Acts [.skipped] loop.toGraphState (steps.foldl run.drain loop).toGraphState := by
  induction steps generalizing loop with
  | nil => exact .refl _ _
  | cons step rest induction =>
      exact (drain_acts loop step).trans (induction (run.drain loop step))

theorem drainPhase_acts (loop : Loop) :
    run.Acts [.skipped] loop.toGraphState (run.drainPhase loop).toGraphState := by
  rcases drainPhase_cases run loop with broke | ⟨_, drained⟩
  · rw [broke]
    exact .refl _ _
  · rw [drained]
    exact drainAll_acts (run.stuck loop) loop

/-- The states that a turn moves nodes to once its steps are started. -/
def settlingStates : List StepState := .skipped :: graphTransitions .running

private theorem skipped_settling : [StepState.skipped] ⊆ settlingStates := by
  decide

theorem collectPhase_acts (done : run.collectPhase turn loop = .ok after) :
    run.Acts settlingStates loop.toGraphState after.toGraphState := by
  rcases collectPhase_cases done with ⟨collected, skipped, collects, skips, rfl⟩
  exact ((collectCompleted_acts collects).mono (List.subset_cons_self _ _)).trans
    ((skipUnsatisfiable_acts skips).mono skipped_settling)

/-- The last part of a turn settles steps. -/
theorem settles_acts {started : Loop}
    (settles : started.inFlight = [] ∧ after = run.drainPhase started ∨
      started.inFlight ≠ [] ∧ run.collectPhase turn started = .ok after) :
    run.Acts settlingStates started.toGraphState after.toGraphState := by
  rcases settles with ⟨_, rfl⟩ | ⟨_, collects⟩
  · exact (drainPhase_acts started).mono skipped_settling
  · exact collectPhase_acts collects

end Execution

end Raphael.Agent.Executor
