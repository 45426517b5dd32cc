import Raphael.Foundation.SlotTable
import Raphael.Runtime.TaskManager

/-! # Racing transitions

`transition` reads the task, checks the edge and writes the task inside a
`transaction()` block whose lock is not held for its body. The invariant below
follows the committed and the visible state of every task through all orders of
the threads' steps in which no thread saves over a state it has not read. -/

namespace Raphael.Runtime

open Core Foundation Persistence

namespace Managing

variable {Thread : Type u}

/-- Every task's committed state stays, or moves along an edge of the machine. -/
def CommitsEdges (before after : Managing Thread) : Prop :=
  ∀ task source, before.committedState task = some source →
    ∃ target, after.committedState task = some target ∧
      (target = source ∨ isValidTransition source target = true)

/-- A terminal committed state is still the committed one. -/
def KeepsTerminal (before after : Managing Thread) : Prop :=
  ∀ task source, before.committedState task = some source →
    isTerminal source = true → after.committedState task = some source

/-- When a thread saves its new state, the task is still in the state the thread
read, both in the connection and in the committed database: no other transition
of the task was saved since, and none is waiting for its COMMIT. -/
def SavesOverOwnRead (state : Managing Thread) : ManagerAction Thread → Prop
  | .call _ _ _ => True
  | .advance thread =>
      match state.phase thread with
      | some (.updating _ task _ read) =>
          state.committedState task = some read ∧ state.visibleState task = some read
      | _ => True

instance (state : Managing Thread) (action : ManagerAction Thread) :
    Decidable (state.SavesOverOwnRead action) := by
  unfold SavesOverOwnRead
  split
  · exact instDecidableTrue
  · split <;> infer_instance

def flags (phase : Thread → Option Phase) : Thread → Option Bool :=
  (fun slot : Option Phase => slot.bind Phase.outermost) ∘ phase

/-- The uncommitted part of a task is at most one edge ahead of the committed
one. -/
structure Tracking (state : Managing Thread) : Prop where
  coherent : Coherent state.database (flags state.phase)
  legal : ∀ thread outermost task target read,
    state.phase thread = some (.updating outermost task target read) →
      isValidTransition read target = true
  pending : ∀ task, state.visibleState task = state.committedState task ∨
    ∃ source target, state.committedState task = some source ∧
      state.visibleState task = some target ∧ isValidTransition source target = true

theorem tracking_start (tables : Tables) : (start tables : Managing Thread).Tracking where
  coherent := Coherent.closed tables
  legal := by simp [start]
  pending := fun _ => .inl rfl

theorem CommitsEdges.of_eq {before after : Managing Thread}
    (equal : ∀ task, after.committedState task = before.committedState task) :
    before.CommitsEdges after :=
  fun task source held => ⟨source, (equal task).trans held, .inl rfl⟩

theorem CommitsEdges.keepsTerminal {before after : Managing Thread}
    (edges : before.CommitsEdges after) : before.KeepsTerminal after := by
  intro task source held terminal
  rcases edges task source held with ⟨target, reached, same | edge⟩
  · rw [reached, same]
  · rw [isValidTransition_of_terminal terminal] at edge
    cases edge

/-- A step that touches neither the committed nor the visible tasks, and saves
nothing unchecked, keeps the invariant. -/
private theorem tracking_of_same_tasks {before after : Managing Thread}
    (tracking : before.Tracking)
    (coherent : Coherent after.database (flags after.phase))
    (legal : ∀ thread outermost task target read,
      after.phase thread = some (.updating outermost task target read) →
        isValidTransition read target = true)
    (committed : ∀ task, after.committedState task = before.committedState task)
    (visible : ∀ task, after.visibleState task = before.visibleState task) :
    after.Tracking ∧ before.CommitsEdges after := by
  refine ⟨⟨coherent, legal, fun task => ?_⟩, .of_eq committed⟩
  rw [committed, visible]
  exact tracking.pending task

variable [DecidableEq Thread]

theorem flags_update (phase : Thread → Option Phase) (thread : Thread)
    (next : Option Phase) :
    flags (Function.update phase thread next) =
      Function.update (flags phase) thread (next.bind Phase.outermost) :=
  Function.comp_update ..

/-- A step that leaves the thread's block as it is leaves all flags as they are. -/
theorem flags_update_same {phase : Thread → Option Phase} {thread : Thread}
    {next : Option Phase}
    (same : next.bind Phase.outermost = (phase thread).bind Phase.outermost) :
    flags (Function.update phase thread next) = flags phase := by
  rw [flags_update]
  exact Function.update_eq_self_iff.mpr same

private theorem legal_update {phase : Thread → Option Phase} {thread : Thread}
    {next : Option Phase}
    (before : ∀ thread outermost task target read,
      phase thread = some (.updating outermost task target read) →
        isValidTransition read target = true)
    (written : ∀ outermost task target read,
      next = some (.updating outermost task target read) →
        isValidTransition read target = true) :
    ∀ other outermost task target read,
      Function.update phase thread next other =
        some (.updating outermost task target read) →
      isValidTransition read target = true := by
  intro other outermost task target read found
  rcases update_eq_some found with ⟨_, same⟩ | ⟨_, present⟩
  · exact written _ _ _ _ same
  · exact before _ _ _ _ _ present

/-- Reading the task changes nothing, and the save that may follow is legal. -/
theorem advancePhase_getting (database : Database Tables) (outermost : Bool)
    (task : TaskId) (target : TaskState) :
    ∃ next, advancePhase database (.getting outermost task target) = (database, some next) ∧
      next.outermost = some outermost ∧
      ∀ flag other goal read, next = .updating flag other goal read →
        isValidTransition read goal = true := by
  simp only [advancePhase]
  cases database.connection.visible.tasks task with
  | none => exact ⟨_, rfl, rfl, by simp⟩
  | some read =>
      cases verdict : assertTransition read target with
      | error _ => exact ⟨.leaving outermost true, by simp [verdict], rfl, by simp⟩
      | ok _ =>
          refine ⟨.updating outermost task target read, by simp [verdict], rfl, ?_⟩
          rintro _ _ _ _ ⟨_, _, _, _⟩
          exact assertTransition_eq_ok.mp verdict

/-- Reading the context changes nothing. -/
theorem advancePhase_loading (database : Database Tables) (outermost : Bool)
    (task : TaskId) (target : TaskState) :
    ∃ next, advancePhase database (.loading outermost task target) = (database, some next) ∧
      next.outermost = some outermost ∧
      ∀ flag other goal read, next = .updating flag other goal read →
        isValidTransition read goal = true := by
  simp only [advancePhase]
  cases database.connection.visible.contexts task with
  | none => exact ⟨_, rfl, rfl, by simp⟩
  | some _ => exact ⟨_, rfl, rfl, by simp⟩

private theorem Tracking.enter {state : Managing Thread} {thread : Thread}
    {task : TaskId} {target : TaskState} (tracking : state.Tracking)
    (current : state.phase thread = some (.entering task target)) :
    let (database, next) := advancePhase state.database (.entering task target)
    let after : Managing Thread :=
      { database, phase := Function.update state.phase thread next }
    after.Tracking ∧ state.CommitsEdges after := by
  have idle : flags state.phase thread = none := by simp [flags, current, Phase.outermost]
  rcases tracking.coherent.enter idle with
    ⟨outermost, entered, entry, coherent, opens, joins⟩
  simp only [advancePhase, entry]
  have connection : entered.connection.committed = state.database.connection.committed ∧
      entered.connection.visible = state.database.connection.visible := by
    cases outermost with
    | true =>
        rcases opens rfl with ⟨quiet, opened⟩
        simp [opened, Connection.visible, quiet]
    | false => simp [joins rfl]
  apply tracking_of_same_tasks tracking
  · rw [flags_update]
    exact coherent
  · exact legal_update tracking.legal (by simp)
  · intro other
    exact congrArg (Tables.tasks · other) connection.1
  · intro other
    exact congrArg (Tables.tasks · other) connection.2

private theorem Tracking.read {state : Managing Thread} {thread : Thread}
    {phase next : Phase} (tracking : state.Tracking)
    (current : state.phase thread = some phase)
    (sameBlock : next.outermost = phase.outermost)
    (checked : ∀ outermost task target read,
      next = .updating outermost task target read → isValidTransition read target = true) :
    let after : Managing Thread :=
      { state with phase := Function.update state.phase thread (some next) }
    after.Tracking ∧ state.CommitsEdges after := by
  apply tracking_of_same_tasks tracking
  · rw [flags_update_same (by rw [current]; exact sameBlock)]
    exact tracking.coherent
  · apply legal_update tracking.legal
    intro outermost task target read same
    exact checked outermost task target read (Option.some.inj same)
  · exact fun _ => rfl
  · exact fun _ => rfl

private theorem Tracking.update {state : Managing Thread} {thread : Thread}
    {outermost : Bool} {task : TaskId} {target read : TaskState}
    (tracking : state.Tracking)
    (current : state.phase thread = some (.updating outermost task target read))
    (fresh : state.committedState task = some read ∧ state.visibleState task = some read) :
    let (database, next) := advancePhase state.database (.updating outermost task target read)
    let after : Managing Thread :=
      { database, phase := Function.update state.phase thread next }
    after.Tracking ∧ state.CommitsEdges after := by
  have edge := tracking.legal thread outermost task target read current
  simp only [advancePhase]
  have coherent := tracking.coherent.write fun tables : Tables =>
    { tables with tasks := Function.update tables.tasks task (some target) }
  rcases state with ⟨⟨⟨committed, working⟩, depth⟩, phase⟩
  rcases fresh with ⟨committedRead, visibleRead⟩
  simp only [committedState, visibleState] at committedRead visibleRead
  refine ⟨⟨?_, legal_update tracking.legal (by simp), ?_⟩, ?_⟩
  · rw [flags_update_same (by rw [current]; rfl)]
    exact coherent
  · intro other
    have pending := tracking.pending other
    simp only [committedState, visibleState, Database.write, Connection.visible_write]
      at pending ⊢
    cases working with
    | none => exact .inl rfl
    | some content =>
        by_cases same : other = task
        · subst same
          exact .inr ⟨read, target, committedRead, by simp, edge⟩
        · simpa [Connection.write, Function.update_of_ne same] using pending
  · intro other source held
    simp only [committedState, Database.write] at held ⊢
    cases working with
    | some content => exact ⟨source, held, .inl rfl⟩
    | none =>
        by_cases same : other = task
        · subst same
          rw [committedRead, Option.some.injEq] at held
          subst held
          exact ⟨target, by simp [Connection.write], .inr edge⟩
        · exact ⟨source, by simpa [Connection.write, Function.update_of_ne same] using held,
            .inl rfl⟩

private theorem Tracking.save {state : Managing Thread} {thread : Thread}
    {outermost : Bool} {task : TaskId} {target : TaskState} (tracking : state.Tracking)
    (current : state.phase thread = some (.saving outermost task target)) :
    let (database, next) := advancePhase state.database (.saving outermost task target)
    let after : Managing Thread :=
      { database, phase := Function.update state.phase thread next }
    after.Tracking ∧ state.CommitsEdges after := by
  simp only [advancePhase]
  apply tracking_of_same_tasks tracking
  · rw [flags_update_same (by rw [current]; rfl)]
    exact tracking.coherent.write _
  · exact legal_update tracking.legal (by simp)
  · intro other
    rcases state with ⟨⟨⟨committed, working⟩, depth⟩, phase⟩
    cases working <;> rfl
  · intro other
    simp [visibleState]

private theorem Tracking.leave {state : Managing Thread} {thread : Thread}
    {outermost raised : Bool} (tracking : state.Tracking)
    (current : state.phase thread = some (.leaving outermost raised)) :
    let (database, next) := advancePhase state.database (.leaving outermost raised)
    let after : Managing Thread :=
      { database, phase := Function.update state.phase thread next }
    after.Tracking ∧ state.CommitsEdges after := by
  have flag : flags state.phase thread = some outermost := by
    simp [flags, current, Phase.outermost]
  rcases tracking.coherent.leave flag raised with ⟨left, exited, coherent, ends, counts⟩
  simp only [advancePhase, exited]
  have stillCoherent : Coherent left (flags (Function.update state.phase thread none)) := by
    rw [flags_update]
    exact coherent
  cases outermost with
  | false =>
      apply tracking_of_same_tasks tracking stillCoherent
      · exact legal_update tracking.legal (by simp)
      · intro task
        simp [committedState, counts rfl]
      · intro task
        simp [visibleState, counts rfl]
  | true =>
      rcases ends rfl with ⟨content, running, connection⟩
      refine ⟨⟨stillCoherent, legal_update tracking.legal (by simp), fun task => .inl ?_⟩, ?_⟩
      · simp [visibleState, committedState, connection]
      · intro task source held
        rcases tracking.pending task with same | ⟨_, target, before, after, edge⟩
        · refine ⟨source, ?_, .inl rfl⟩
          rw [held] at same
          simp only [visibleState, Connection.visible, running, Option.getD_some] at same
          simp only [committedState, connection] at held ⊢
          cases raised
          · exact same
          · exact held
        · rw [held, Option.some.injEq] at before
          subst before
          simp only [visibleState, Connection.visible, running, Option.getD_some] at after
          simp only [committedState, connection] at held ⊢
          cases raised
          · exact ⟨target, after, .inr edge⟩
          · exact ⟨source, held, .inl rfl⟩

/-- One step: the invariant is kept, and what it commits are edges. -/
theorem Tracking.step {state next : Managing Thread} {action : ManagerAction Thread}
    (tracking : state.Tracking) (fresh : state.SavesOverOwnRead action)
    (stepped : step state action = some next) :
    next.Tracking ∧ state.CommitsEdges next := by
  cases action with
  | call thread task target =>
      simp only [Managing.step] at stepped
      cases current : state.phase thread with
      | some phase => simp [current] at stepped
      | none =>
          simp only [current, Option.some.injEq] at stepped
          subst stepped
          apply tracking_of_same_tasks tracking
          · rw [flags_update_same (by rw [current]; rfl)]
            exact tracking.coherent
          · exact legal_update tracking.legal (by simp)
          · exact fun _ => rfl
          · exact fun _ => rfl
  | advance thread =>
      simp only [Managing.step] at stepped
      cases current : state.phase thread with
      | none => simp [current] at stepped
      | some phase =>
          simp only [current, Option.some.injEq] at stepped
          subst stepped
          cases phase with
          | entering task target => exact tracking.enter current
          | getting outermost task target =>
              rcases advancePhase_getting state.database outermost task target with
                ⟨reading, advanced, sameBlock, checked⟩
              rw [advanced]
              exact tracking.read current sameBlock checked
          | updating outermost task target read =>
              simp only [SavesOverOwnRead, current] at fresh
              exact tracking.update current fresh
          | loading outermost task target =>
              rcases advancePhase_loading state.database outermost task target with
                ⟨reading, advanced, sameBlock, checked⟩
              rw [advanced]
              exact tracking.read current sameBlock checked
          | saving outermost task target => exact tracking.save current
          | leaving outermost raised => exact tracking.leave current

/-- In every run whose saves meet the condition, a terminal committed state stays,
and every committed change is an edge of the state machine. -/
theorem terminal_absorbing_of_savesOverOwnRead {tables : Tables}
    {earlier later : List (ManagerAction Thread)} {middle final : Managing Thread}
    (fresh : StepFunction.Meets step SavesOverOwnRead (start tables) (earlier ++ later))
    (reached : StepFunction.run step (start tables) earlier = some middle)
    (continued : StepFunction.run step middle later = some final) :
    middle.KeepsTerminal final ∧
      ∀ action rest next, later = action :: rest → step middle action = some next →
        middle.CommitsEdges next := by
  rcases StepFunction.meets_append.mp fresh with ⟨freshEarlier, freshLater⟩
  have tracking : middle.Tracking :=
    StepFunction.invariant_of_meets
      (fun _ _ _ holds meets stepped => (Tracking.step holds meets stepped).1)
      (tracking_start tables) freshEarlier reached
  constructor
  · refine StepFunction.related_of_meets Tracking
      (fun _ _ _ held _ => held)
      (fun _ _ _ first second task source held terminal =>
        second task source (first task source held terminal) terminal)
      ?_ tracking (freshLater middle reached) continued
    intro state action next holds meets stepped
    rcases holds.step meets stepped with ⟨kept, edges⟩
    exact ⟨kept, edges.keepsTerminal⟩
  · rintro action rest next rfl stepped
    exact (tracking.step (freshLater middle reached).1 stepped).2

/-- A task that is executing, and no context. -/
def executingTask : Tables where
  tasks := fun task => if task = "t" then some .executing else none
  contexts := fun _ => none

/-- The operator's cancellation and the orchestrator's next transition both read
EXECUTING; the cancellation is committed first. -/
def cancelledThenVerifying : List (ManagerAction Bool) :=
  [.call false "t" .cancelled, .call true "t" .verifying,
    .advance false, .advance true, .advance false, .advance true,
    .advance false, .advance false, .advance false]

theorem cancelledThenVerifying_leaves_terminal :
    ∃ middle final, StepFunction.run step (start executingTask) cancelledThenVerifying =
        some middle ∧
      step middle (.advance true) = some final ∧
      middle.committedState "t" = some .cancelled ∧
      final.committedState "t" = some .verifying :=
  ⟨_, _, rfl, rfl, rfl, rfl⟩

/-- One call after the other: the second finds the task cancelled and raises. -/
def oneCallAfterTheOther : List (ManagerAction Bool) :=
  [.call false "t" .cancelled, .advance false, .advance false, .advance false,
    .advance false, .advance false]

theorem terminal_absorbing_of_oneCallAfterTheOther :
    ∃ middle final,
      StepFunction.run step (start executingTask) oneCallAfterTheOther = some middle ∧
      StepFunction.run step middle
        [.call true "t" .verifying, .advance true, .advance true, .advance true] =
          some final ∧
      middle.KeepsTerminal final :=
  ⟨_, _, rfl, rfl,
    (@terminal_absorbing_of_savesOverOwnRead _ _ executingTask oneCallAfterTheOther
      [.call true "t" .verifying, .advance true, .advance true, .advance true] _ _
      (by decide) rfl rfl).1⟩

end Managing

end Raphael.Runtime
