import Mathlib.Data.Fintype.Basic
import Raphael.Scheduler.CancellationRace

/-! # Ticks against ticks

Every tick works from the jobs it has listed. The record beside the state remembers which
dispatches have succeeded, and the invariant below holds while every job is started from a
stored one that is still queued. -/

namespace Raphael.Scheduler

open Foundation Persistence

/-- A phase of a tick: a job on its way to the dispatch is RUNNING, and one that is
finished is not QUEUED. -/
def SchedulerPhase.Ticking : SchedulerPhase → Prop
  | .submitting _ | .creating _ | .requiring _ | .cancelling _ | .resuming
  | .resetting _ _ => False
  | .routing job _ _ | .routed job _ _ | .dispatching job _ _ | .awaiting job _ _ =>
      job.status = .running
  | .finishing job _ _ => job.status ≠ .queued
  | _ => True

def SchedulerPhase.isFinishing : SchedulerPhase → Bool
  | .finishing _ _ _ => true
  | _ => false

/-- The id of the job whose dispatch is under way. -/
def SchedulerPhase.awaited : SchedulerPhase → Option String
  | .awaiting job _ _ => some job.id
  | _ => none

/-- The id of the job that is dispatched next. -/
def SchedulerPhase.due : SchedulerPhase → Option String
  | .dispatching job _ _ => some job.id
  | _ => none

/-- The id of the job that `_run_one` saves as RUNNING next. -/
def SchedulerPhase.starting : SchedulerPhase → Option String
  | .running (job :: _) _ => some job.id
  | _ => none

/-- The steps of `tick`, and a repository that raises. -/
def SchedulerAction.ofTick : SchedulerAction Call → Bool
  | .tick _ _ | .advance _ _ | .route _ _ | .dispatch _ | .dispatched _ _ | .raise _ _ => true
  | .submit _ _ | .cancel _ _ | .resumeInterrupted _ | .crash => false

/-- The scheduler, and the ids of the jobs of which a dispatch has succeeded. -/
structure Watched (Call : Type u) where
  state : Scheduling Call
  succeeded : List String

namespace Watched

variable {Call : Type u}

/-- The dispatch that succeeds with a step. -/
def success (state : Scheduling Call) : SchedulerAction Call → Option String
  | .dispatched call (.ok _) => (state.phase call).bind SchedulerPhase.awaited
  | _ => none

def record (succeeded : List String) : Option String → List String
  | some id => succeeded ++ [id]
  | none => succeeded

def start (table : SnapshotTable ScheduledJob) : Watched Call := ⟨.start table, []⟩

/-- A job that is dispatched has no dispatch in progress, and none that has succeeded. -/
def Fresh (watched : Watched Call) : SchedulerAction Call → Prop
  | .dispatch call =>
      ∀ id ∈ (watched.state.phase call).bind SchedulerPhase.due,
        (∀ other, (watched.state.phase other).bind SchedulerPhase.awaited ≠ some id) ∧
          id ∉ watched.succeeded
  | _ => True

instance [Fintype Call] (watched : Watched Call) :
    (action : SchedulerAction Call) → Decidable (watched.Fresh action)
  | .dispatch call =>
      inferInstanceAs (Decidable (∀ id ∈ (watched.state.phase call).bind SchedulerPhase.due,
        (∀ other, (watched.state.phase other).bind SchedulerPhase.awaited ≠ some id) ∧
          id ∉ watched.succeeded))
  | .submit _ _ | .cancel _ _ | .tick _ _ | .resumeInterrupted _ | .advance _ _ | .route _ _
  | .dispatched _ _ | .raise _ _ | .crash => .isTrue trivial

/-- The first save of `_run_one` finds the job still queued. -/
def StartsQueued (watched : Watched Call) : SchedulerAction Call → Prop
  | .advance call _ =>
      ∀ id ∈ (watched.state.phase call).bind SchedulerPhase.starting,
        watched.state.statusOf id = some .queued
  | _ => True

instance (watched : Watched Call) :
    (action : SchedulerAction Call) → Decidable (watched.StartsQueued action)
  | .advance call _ =>
      inferInstanceAs (Decidable (∀ id ∈ (watched.state.phase call).bind
        SchedulerPhase.starting, watched.state.statusOf id = some .queued))
  | .submit _ _ | .cancel _ _ | .tick _ _ | .resumeInterrupted _ | .route _ _ | .dispatch _
  | .dispatched _ _ | .raise _ _ | .crash => .isTrue trivial

/-- A job in hand is in one hand only, and it is not stored as queued; one that was
dispatched with success is neither, unless it is being finished. -/
structure Exclusive (watched : Watched Call) : Prop where
  busy : ∀ call job, watched.state.handles call = some job →
    watched.state.statusOf job.id ≠ some .queued
  apart : ∀ first second left right, watched.state.handles first = some left →
    watched.state.handles second = some right → left.id = right.id → first = second
  settled : ∀ id ∈ watched.succeeded, watched.state.statusOf id ≠ some .queued
  finishing : ∀ call phase job, watched.state.phase call = some phase →
    phase.inHand = some job → job.id ∈ watched.succeeded → phase.isFinishing = true
  ticking : ∀ call phase, watched.state.phase call = some phase → phase.Ticking

theorem exclusive_start (table : SnapshotTable ScheduledJob) :
    (start table : Watched Call).Exclusive where
  busy := by simp [start, Scheduling.start, Scheduling.handles]
  apart := by simp [start, Scheduling.start, Scheduling.handles]
  settled := by simp [start]
  finishing := by simp [start, Scheduling.start]
  ticking := by simp [start, Scheduling.start]

/-- The call has a job of this id in hand. -/
def Holds (watched : Watched Call) (call : Call) (id : String) : Prop :=
  ∃ job, watched.state.handles call = some job ∧ job.id = id

/-- A job before its dispatch, or under it, has not succeeded. -/
theorem Exclusive.not_succeeded {watched : Watched Call} {call : Call}
    {phase : SchedulerPhase} {job : ScheduledJob} (exclusive : watched.Exclusive)
    (current : watched.state.phase call = some phase) (holds : phase.inHand = some job)
    (unfinished : phase.isFinishing = false) : job.id ∉ watched.succeeded := by
  intro member
  have finishing := exclusive.finishing call phase job current holds member
  rw [unfinished] at finishing
  cases finishing

/-- A dispatch is that of a job in hand. -/
theorem holds_of_awaited {watched : Watched Call} {call : Call} {id : String}
    (awaited : (watched.state.phase call).bind SchedulerPhase.awaited = some id) :
    watched.Holds call id := by
  rcases Option.bind_eq_some_iff.mp awaited with ⟨phase, current, awaits⟩
  cases phase with
  | awaiting job rest ran =>
      cases awaits
      refine ⟨job, ?_, rfl⟩
      rw [Scheduling.handles, current]
      rfl
  | _ => cases awaits

/-- Where the invariant holds every dispatch is fresh. -/
theorem Exclusive.fresh {watched : Watched Call} (exclusive : watched.Exclusive)
    (action : SchedulerAction Call) : watched.Fresh action := by
  cases action with
  | dispatch call =>
      intro id due
      rcases Option.bind_eq_some_iff.mp due with ⟨phase, current, isDue⟩
      cases phase with
      | dispatching job rest ran =>
          cases isDue
          have mine : watched.state.handles call = some job := by
            rw [Scheduling.handles, current]
            rfl
          refine ⟨fun other awaited => ?_, exclusive.not_succeeded current rfl rfl⟩
          rcases holds_of_awaited awaited with ⟨held, theirs, same⟩
          cases exclusive.apart other call held job theirs mine same
          rw [current] at awaited
          cases awaited
      | _ => cases isDue
  | _ => trivial

variable [DecidableEq Call]

def step (setup : Setup) : StepFunction (Watched Call) (SchedulerAction Call)
  | watched, action =>
      (Scheduling.step setup watched.state action).map fun state =>
        ⟨state, record watched.succeeded (success watched.state action)⟩

/-- A step of one call. It lets go of its job, or has one that it had before or that was
queued, and what is queued afterwards was so before, or is the job it lets go of. -/
theorem Exclusive.move {before after : Watched Call} {call : Call} {phase : SchedulerPhase}
    (exclusive : before.Exclusive)
    (moved : after.state.phase = Function.update before.state.phase call (some phase))
    (queued : ∀ id, after.state.statusOf id = some .queued →
      before.state.statusOf id = some .queued ∨
        before.Holds call id ∧ phase.inHand = none ∧ id ∉ after.succeeded)
    (succeeded : ∀ id ∈ after.succeeded, id ∈ before.succeeded ∨ before.Holds call id)
    (mine : ∀ job, phase.inHand = some job → after.state.statusOf job.id ≠ some .queued ∧
      (before.Holds call job.id ∨ before.state.statusOf job.id = some .queued) ∧
      (job.id ∈ after.succeeded → phase.isFinishing = true))
    (ticking : phase.Ticking) : after.Exclusive := by
  have handles := Scheduling.handles_update moved
  -- no other call has the job in hand
  have others : ∀ other held id, other ≠ call → before.state.handles other = some held →
      before.Holds call id → held.id ≠ id := by
    rintro other held id differs present ⟨own, inHand, rfl⟩ same
    exact differs (exclusive.apart other call held own present inHand same)
  have elsewhere : ∀ other held job, other ≠ call →
      before.state.handles other = some held → phase.inHand = some job →
      held.id ≠ job.id := by
    intro other held job differs present inHand same
    rcases (mine job inHand).2.1 with holds | free
    · exact others other held job.id differs present holds same
    · rw [← same] at free
      exact exclusive.busy other held present free
  refine ⟨?_, ?_, ?_, ?_, ?_⟩
  · intro other job found
    rw [handles] at found
    rcases update_eq_some found with ⟨_, own⟩ | ⟨differs, present⟩
    · exact (mine job own).1
    · intro again
      rcases queued job.id again with free | ⟨holds, _⟩
      · exact exclusive.busy other job present free
      · exact others other job job.id differs present holds rfl
  · intro first second left right inFirst inSecond same
    rw [handles] at inFirst inSecond
    rcases update_eq_some inFirst with ⟨rfl, own⟩ | ⟨differs, present⟩ <;>
      rcases update_eq_some inSecond with ⟨rfl, ownToo⟩ | ⟨differsToo, presentToo⟩
    · rfl
    · exact absurd same.symm (elsewhere second right left differsToo presentToo own)
    · exact absurd same (elsewhere first left right differs present ownToo)
    · exact exclusive.apart first second left right present presentToo same
  · intro id member again
    rcases queued id again with free | ⟨_, _, absent⟩
    · rcases succeeded id member with was | ⟨job, held, rfl⟩
      · exact exclusive.settled id was free
      · exact exclusive.busy call job held free
    · exact absent member
  · intro other current job found inHand member
    rw [moved] at found
    rcases update_eq_some found with ⟨_, same⟩ | ⟨differs, present⟩
    · cases same
      exact (mine job inHand).2.2 member
    · rcases succeeded job.id member with was | holds
      · exact exclusive.finishing other current job present inHand was
      · have theirs : before.state.handles other = some job := by
          rw [Scheduling.handles, present]
          exact inHand
        exact absurd rfl (others other job job.id differs theirs holds)
  · intro other current found
    rw [moved] at found
    rcases update_eq_some found with ⟨_, same⟩ | ⟨_, present⟩
    · cases same
      exact ticking
    · exact exclusive.ticking other current present

/-- A step that saves nothing and leaves the call without a job. -/
theorem Exclusive.drop {watched : Watched Call} {state : Scheduling Call} {call : Call}
    {phase : SchedulerPhase} (exclusive : watched.Exclusive)
    (moved : state.phase = Function.update watched.state.phase call (some phase))
    (table : state.table = watched.state.table) (ticking : phase.Ticking)
    (none : phase.inHand = none) : (Watched.mk state watched.succeeded).Exclusive := by
  refine exclusive.move moved ?_ (fun _ => Or.inl) ?_ ticking
  · intro id queued
    rw [Scheduling.statusOf, table] at queued
    exact Or.inl queued
  · intro job inHand
    rw [none] at inHand
    cases inHand

/-- A step that saves nothing and keeps the job in hand, before its dispatch or under it. -/
theorem Exclusive.hold {watched : Watched Call} {state : Scheduling Call} {call : Call}
    {current phase : SchedulerPhase} {job held : ScheduledJob}
    (exclusive : watched.Exclusive) (found : watched.state.phase call = some current)
    (inHand : current.inHand = some held)
    (moved : state.phase = Function.update watched.state.phase call (some phase))
    (table : state.table = watched.state.table) (ticking : phase.Ticking)
    (holds : phase.inHand = some job) (same : held.id = job.id)
    (unfinished : current.isFinishing = false) :
    (Watched.mk state watched.succeeded).Exclusive := by
  have mine : watched.state.handles call = some held := by
    rw [Scheduling.handles, found]
    exact inHand
  refine exclusive.move moved ?_ (fun _ => Or.inl) ?_ ticking
  · intro id queued
    rw [Scheduling.statusOf, table] at queued
    exact Or.inl queued
  · intro other present
    cases holds.symm.trans present
    refine ⟨?_, Or.inl ⟨held, mine, same⟩, ?_⟩
    · rw [← same, Scheduling.statusOf, table]
      exact exclusive.busy call held mine
    · intro member
      exact absurd (same ▸ member) (exclusive.not_succeeded found inHand unfinished)

/-- A save of a job that is not queued afterwards, or that the call lets go of. -/
theorem Exclusive.save {watched : Watched Call} {call : Call} {now : Int}
    {job : ScheduledJob} {next : ScheduledJob → SchedulerPhase}
    (exclusive : watched.Exclusive)
    (requeued : job.status = .queued → watched.Holds call job.id ∧
      (next (Entity.touch now job)).inHand = none ∧ job.id ∉ watched.succeeded)
    (mine : ∀ held, (next (Entity.touch now job)).inHand = some held → held.id = job.id ∧
      (watched.Holds call job.id ∨ watched.state.statusOf job.id = some .queued) ∧
      job.id ∉ watched.succeeded)
    (ticking : (next (Entity.touch now job)).Ticking) :
    (Watched.mk (watched.state.save call now job next) watched.succeeded).Exclusive := by
  have status := Scheduling.statusOf_save watched.state call now job next
  refine exclusive.move (Scheduling.save_phase ..) ?_ (fun _ => Or.inl) ?_ ticking
  · intro id queued
    rw [status] at queued
    split at queued
    · next same =>
        cases same
        rcases requeued (Option.some.inj queued) with ⟨holds, none, absent⟩
        exact Or.inr ⟨holds, none, absent⟩
    · exact Or.inl queued
  · intro held inHand
    rcases mine held inHand with ⟨same, free, absent⟩
    rw [same]
    refine ⟨?_, free, fun member => absurd member absent⟩
    rw [status, if_pos rfl]
    intro queued
    have none := (requeued (Option.some.inj queued)).2.1
    rw [inHand] at none
    cases none

theorem Exclusive.readyOne {setup : Setup} {watched : Watched Call} {call : Call}
    {now moment : Int} {byId rest ready : List ScheduledJob} (exclusive : watched.Exclusive)
    (job : ScheduledJob) :
    (Watched.mk (watched.state.readyOne setup call now moment byId rest ready job)
      watched.succeeded).Exclusive := by
  unfold Scheduling.readyOne
  split
  · refine exclusive.save ?_ ?_ trivial
    · intro queued
      cases queued
    · intro held inHand
      cases inHand
  · split <;> exact exclusive.drop rfl rfl trivial rfl

/-- A queued job is started, and taken in hand. -/
theorem Exclusive.start {setup : Setup} {watched : Watched Call} {call : Call} {now : Int}
    {job : ScheduledJob} {rest ran : List ScheduledJob} (exclusive : watched.Exclusive)
    (queued : watched.state.statusOf job.id = some .queued) :
    (Watched.mk (watched.state.save call now job.started
      (Scheduling.afterStart setup rest ran)) watched.succeeded).Exclusive := by
  have absent : job.id ∉ watched.succeeded := fun member =>
    exclusive.settled job.id member queued
  refine exclusive.save ?_ ?_ ?_
  · intro again
    cases again
  · intro held inHand
    unfold Scheduling.afterStart at inHand
    split at inHand <;> cases inHand <;> exact ⟨rfl, Or.inr queued, absent⟩
  · unfold Scheduling.afterStart
    split
    · rfl
    · exact ScheduledStatus.noConfusion

theorem Exclusive.advance {setup : Setup} {watched : Watched Call} {state : Scheduling Call}
    {call : Call} {now : Int} {phase : SchedulerPhase} (exclusive : watched.Exclusive)
    (current : watched.state.phase call = some phase)
    (queued : watched.StartsQueued (.advance call now))
    (advanced : watched.state.advance setup call now phase = some state) :
    (Watched.mk state watched.succeeded).Exclusive := by
  have handles : watched.state.handles call = phase.inHand := by
    rw [Scheduling.handles, current, Option.bind_some]
  have ticking := exclusive.ticking call phase current
  simp only [StartsQueued, current] at queued
  cases phase with
  | listing moment =>
      cases advanced
      exact exclusive.drop rfl rfl trivial rfl
  | readying moment byId rest ready =>
      cases rest with
      | nil =>
          cases advanced
          exact exclusive.drop rfl rfl trivial rfl
      | cons job rest =>
          cases advanced
          exact exclusive.readyOne job
  | running rest ran =>
      cases rest with
      | nil =>
          cases advanced
          exact exclusive.drop rfl rfl trivial rfl
      | cons job rest =>
          cases advanced
          exact exclusive.start (queued job.id rfl)
  | routed job rest ran =>
      cases advanced
      have absent := exclusive.not_succeeded current rfl rfl
      refine exclusive.save ?_ ?_ ticking
      · intro again
        have running : job.status = .running := ticking
        rw [again] at running
        cases running
      · intro held inHand
        cases inHand
        exact ⟨rfl, Or.inl ⟨job, handles, rfl⟩, absent⟩
  | requeueing job rest ran =>
      cases advanced
      have absent := exclusive.not_succeeded current rfl rfl
      refine exclusive.save (fun _ => ⟨⟨job, handles, rfl⟩, rfl, absent⟩) ?_ trivial
      intro held inHand
      cases inHand
  | finishing job rest ran =>
      cases advanced
      refine exclusive.save (fun again => absurd again ticking) ?_ trivial
      intro held inHand
      cases inHand
  | submitting job => cases ticking
  | creating job => cases ticking
  | requiring jobId => cases ticking
  | cancelling job => cases ticking
  | resuming => cases ticking
  | resetting rest reset => cases ticking
  | routing job rest ran => cases advanced
  | dispatching job rest ran => cases advanced
  | awaiting job rest ran => cases advanced
  | finished result => cases advanced

/-- The dispatch succeeds, or it raises and the job is queued again or finished. -/
theorem Exclusive.afterDispatch {watched : Watched Call} {call : Call} {job : ScheduledJob}
    {rest ran : List ScheduledJob} (exclusive : watched.Exclusive)
    (current : watched.state.phase call = some (.awaiting job rest ran))
    (answer : Except String String) :
    (Watched.mk (watched.state.moveTo call (Scheduling.afterDispatch job rest ran answer))
      (record watched.succeeded
        (success watched.state (.dispatched call answer)))).Exclusive := by
  cases answer with
  | ok summary =>
      have mine : watched.state.handles call = some job := by
        rw [Scheduling.handles, current]
        rfl
      have succeeded : success watched.state (.dispatched call (.ok summary)) =
          some job.id := by
        rw [success, current]
        rfl
      rw [succeeded]
      refine exclusive.move rfl (fun _ => Or.inl) ?_ ?_ ScheduledStatus.noConfusion
      · intro id member
        rcases List.mem_append.mp member with was | own
        · exact Or.inl was
        · exact Or.inr ⟨job, mine, (List.mem_singleton.mp own).symm⟩
      · intro held inHand
        cases inHand
        exact ⟨exclusive.busy call job mine, Or.inl ⟨job, mine, rfl⟩, fun _ => rfl⟩
  | error raised =>
      unfold Scheduling.afterDispatch
      dsimp only
      split
      · exact exclusive.hold current rfl rfl rfl trivial rfl rfl rfl
      · exact exclusive.hold current rfl rfl rfl ScheduledStatus.noConfusion rfl rfl rfl

/-- One step of a tick keeps the invariant. -/
theorem Exclusive.step {setup : Setup} {before after : Watched Call}
    {action : SchedulerAction Call} (exclusive : before.Exclusive)
    (ofTick : action.ofTick = true) (queued : before.StartsQueued action)
    (taken : Watched.step setup before action = some after) : after.Exclusive := by
  rcases Option.map_eq_some_iff.mp taken with ⟨state, stepped, rfl⟩
  cases action with
  | tick call moment =>
      simp only [Scheduling.step, Scheduling.begin] at stepped
      split at stepped <;> cases stepped
      exact exclusive.drop rfl rfl trivial rfl
  | advance call now =>
      simp only [Scheduling.step] at stepped
      split at stepped
      · cases stepped
      · next phase current => exact exclusive.advance current queued stepped
  | route call answer =>
      simp only [Scheduling.step] at stepped
      split at stepped
      · next job rest ran provider current =>
          cases stepped
          exact exclusive.hold current rfl rfl rfl
            (exclusive.ticking call (.routing job rest ran) current) rfl rfl rfl
      · next job rest ran raised current =>
          cases stepped
          exact exclusive.hold current rfl rfl rfl ScheduledStatus.noConfusion rfl rfl rfl
      · cases stepped
  | dispatch call =>
      simp only [Scheduling.step] at stepped
      split at stepped
      · next job rest ran current =>
          cases stepped
          exact exclusive.hold current rfl rfl rfl
            (exclusive.ticking call (.dispatching job rest ran) current) rfl rfl rfl
      · cases stepped
  | dispatched call answer =>
      simp only [Scheduling.step] at stepped
      split at stepped
      · next job rest ran current =>
          cases stepped
          exact exclusive.afterDispatch current answer
      · cases stepped
  | raise call error =>
      simp only [Scheduling.step] at stepped
      split at stepped
      · cases stepped
      · cases stepped
      · next job current => cases exclusive.ticking call (.creating job) current
      · cases stepped
        exact exclusive.drop rfl rfl trivial rfl
  | submit call job => cases ofTick
  | cancel call jobId => cases ofTick
  | resumeInterrupted call => cases ofTick
  | crash => cases ofTick

/-- While every job is started from a stored one that is still queued, no tick dispatches a
job that is being dispatched, or that was with success. -/
theorem fresh_of_startsQueued (setup : Setup) (table : SnapshotTable ScheduledJob)
    (actions : List (SchedulerAction Call)) (ofTick : ∀ action ∈ actions, action.ofTick = true)
    (queued : StepFunction.Meets (step setup) StartsQueued (start table) actions) :
    StepFunction.Meets (step setup) Fresh (start table) actions :=
  StepFunction.meets_of_meets
    (fun _ _ _ exclusive condition stepped => exclusive.step condition.1 condition.2 stepped)
    (fun _ action exclusive _ => exclusive.fresh action) (exclusive_start table)
    (StepFunction.meets_and ofTick queued)

/-! ## Two ticks with one job -/

def oneJob : SnapshotTable ScheduledJob :=
  (SnapshotTable.empty "scheduler_jobs").append
    { id := "report", createdAt := 0, updatedAt := 0 } rfl

/-- A tick up to its first save, and from there to its dispatch. -/
def lists (call : Bool) : List (SchedulerAction Bool) :=
  [.tick call 1, .advance call 1, .advance call 1, .advance call 1]

def starts (call : Bool) : List (SchedulerAction Bool) :=
  [.advance call 2, .route call (.ok "local"), .advance call 3, .dispatch call]

/-- The tick comes to its end. -/
def ends (call : Bool) : List (SchedulerAction Bool) :=
  [.dispatched call (.ok "done"), .advance call 4, .advance call 5]

/-- The second tick begins when the first is done. -/
theorem fresh_of_successive :
    (StepFunction.run (step {}) (start oneJob) (lists false ++ starts false ++ ends false ++
      [.tick true 6, .advance true 6, .advance true 6, .advance true 6])).isSome = true ∧
    StepFunction.Meets (step {}) Fresh (start oneJob) (lists false ++ starts false ++
      ends false ++ [.tick true 6, .advance true 6, .advance true 6, .advance true 6]) :=
  ⟨by decide +kernel, fresh_of_startsQueued {} oneJob _ (by decide) (by decide +kernel)⟩

/-- Both ticks list the job before one of them starts it, and both dispatch it. -/
theorem dispatched_twice :
    (∀ action ∈ lists false ++ lists true ++ starts false ++ starts true,
      action.ofTick = true) ∧
    (∃ final, StepFunction.run (step {}) (start oneJob)
        (lists false ++ lists true ++ starts false ++ starts true) = some final ∧
      final.state.dispatched = ["report", "report"] ∧
      ∀ call, (final.state.phase call).bind SchedulerPhase.awaited = some "report") ∧
    ¬ StepFunction.Meets (step {}) Fresh (start oneJob)
      (lists false ++ lists true ++ starts false ++ starts true) := by
  refine ⟨by decide, ⟨_, rfl, by decide +kernel, by decide +kernel⟩, by decide +kernel⟩

end Watched

end Raphael.Scheduler
