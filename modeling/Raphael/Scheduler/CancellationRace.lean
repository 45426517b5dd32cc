import Raphael.Foundation.SlotTable
import Raphael.Scheduler.Scheduler

/-! # Cancellation against ticks

A tick runs the job objects it has loaded, and `cancel` saves the one it has read.
The invariant below follows who has a job in hand while every save of a queued job
finds it still queued. -/

namespace Raphael.Scheduler

open Foundation Persistence

/-- The job that `_run_one` is running. -/
def SchedulerPhase.inHand : SchedulerPhase → Option ScheduledJob
  | .routing job _ _ | .routed job _ _ | .dispatching job _ _ | .awaiting job _ _
  | .requeueing job _ _ | .finishing job _ _ => some job
  | _ => none

/-- The call is not `resume_interrupted`, a job that is to be dispatched is RUNNING,
and one that `cancel` is to save is CANCELLED. -/
def SchedulerPhase.Sound : SchedulerPhase → Prop
  | .resuming | .resetting _ _ => False
  | .routing job _ _ | .routed job _ _ | .dispatching job _ _ | .awaiting job _ _ =>
      job.status = .running
  | .cancelling job => job.status = .cancelled
  | _ => True

/-- The id of the queued job that the next repository call saves. -/
def SchedulerPhase.savesQueued : SchedulerPhase → Option String
  | .cancelling job => some job.id
  | .running (job :: _) _ => some job.id
  | .readying moment _ (job :: _) _ => if job.fails moment then some job.id else none
  | _ => none

namespace Scheduling

variable {Call : Type u}

def statusOf (state : Scheduling Call) (id : String) : Option ScheduledStatus :=
  (state.table.get id).map ScheduledJob.status

def handles (state : Scheduling Call) (call : Call) : Option ScheduledJob :=
  (state.phase call).bind SchedulerPhase.inHand

/-- The run is one of submissions, cancellations and ticks, and every save by which a
tick starts or fails a queued job, or `cancel` cancels it, finds it still queued. -/
def SavesQueued (state : Scheduling Call) : SchedulerAction Call → Prop
  | .resumeInterrupted _ => False
  | .advance call _ =>
      ∀ jobId ∈ (state.phase call).bind SchedulerPhase.savesQueued,
        state.statusOf jobId = some .queued
  | _ => True

instance (state : Scheduling Call) :
    (action : SchedulerAction Call) → Decidable (state.SavesQueued action)
  | .resumeInterrupted _ => .isFalse id
  | .advance call _ =>
      inferInstanceAs (Decidable (∀ jobId ∈ (state.phase call).bind SchedulerPhase.savesQueued,
        state.statusOf jobId = some .queued))
  | .submit _ _ | .cancel _ _ | .tick _ _ | .route _ _ | .dispatch _ | .dispatched _ _
  | .raise _ _ | .crash => .isTrue trivial

/-- A job in hand is RUNNING and in one hand only; a cancelled one is CANCELLED. -/
structure Owned (state : Scheduling Call) : Prop where
  running : ∀ call job, state.handles call = some job →
    state.statusOf job.id = some .running
  apart : ∀ first second left right, state.handles first = some left →
    state.handles second = some right → left.id = right.id → first = second
  cancelled : ∀ id ∈ state.cancelled, state.statusOf id = some .cancelled
  sound : ∀ call phase, state.phase call = some phase → phase.Sound

/-- What was cancelled stays so, and is not dispatched. -/
def KeepsCancelled (before after : Scheduling Call) : Prop :=
  ∀ id ∈ before.cancelled, id ∈ after.cancelled ∧
    after.dispatched.count id = before.dispatched.count id

theorem owned_start (table : SnapshotTable ScheduledJob) :
    (start table : Scheduling Call).Owned where
  running := by simp [start, handles]
  apart := by simp [start, handles]
  cancelled := by simp [start]
  sound := by simp [start]

theorem KeepsCancelled.refl (state : Scheduling Call) : state.KeepsCancelled state :=
  fun _ present => ⟨present, rfl⟩

theorem KeepsCancelled.trans {first middle last : Scheduling Call}
    (left : first.KeepsCancelled middle) (right : middle.KeepsCancelled last) :
    first.KeepsCancelled last := by
  intro id present
  rcases left id present with ⟨still, count⟩
  rcases right id still with ⟨kept, counted⟩
  exact ⟨kept, counted.trans count⟩

/-- A creation leaves the status of every stored job. -/
private theorem statusOf_create {before after : Scheduling Call} {now : Int}
    {job created : ScheduledJob} {table : SnapshotTable ScheduledJob}
    (written : before.table.create now job = .ok (table, created)) {id : String}
    {status : ScheduledStatus} (found : before.statusOf id = some status)
    (stored : after.table = table) : after.statusOf id = some status := by
  have unused := (SnapshotTable.create_eq_ok written).2.2
  rw [statusOf, stored, SnapshotTable.get_create written]
  split
  · next same =>
      rw [statusOf, same, unused] at found
      cases found
  · exact found

private theorem status_of_requireQueued {state : Scheduling Call} {jobId : String}
    {job : ScheduledJob} (required : state.requireQueued jobId = .ok job) :
    job.status = .cancelled := by
  unfold requireQueued at required
  split at required
  · cases required
  · split at required
    · cases required
      rfl
    · cases required

variable [DecidableEq Call]

theorem handles_update {before after : Scheduling Call} {call : Call}
    {phase : SchedulerPhase}
    (moved : after.phase = Function.update before.phase call (some phase)) :
    after.handles = Function.update before.handles call phase.inHand := by
  funext other
  simp only [handles, moved]
  by_cases same : other = call
  · subst same
    simp
  · simp [Function.update_of_ne same, handles]

private theorem sound_update {before after : Scheduling Call} {call : Call}
    {phase : SchedulerPhase} (owned : before.Owned)
    (moved : after.phase = Function.update before.phase call (some phase))
    (sound : phase.Sound) :
    ∀ other current, after.phase other = some current → current.Sound := by
  intro other current found
  rw [moved] at found
  rcases update_eq_some found with ⟨_, same⟩ | ⟨_, present⟩
  · rwa [← Option.some.inj same]
  · exact owned.sound other current present

/-- A step that saves no stored job: the call keeps its job in hand, or lets go of it. -/
private theorem Owned.move {before after : Scheduling Call} {call : Call}
    {phase : SchedulerPhase} (owned : before.Owned)
    (moved : after.phase = Function.update before.phase call (some phase))
    (status : ∀ id value, before.statusOf id = some value → after.statusOf id = some value)
    (cancelled : after.cancelled = before.cancelled)
    (sound : phase.Sound)
    (holds : ∀ job, phase.inHand = some job →
      ∃ held, before.handles call = some held ∧ held.id = job.id) : after.Owned := by
  have held : ∀ other job, after.handles other = some job →
      ∃ held, before.handles other = some held ∧ held.id = job.id := by
    intro other job found
    rw [handles_update moved] at found
    rcases update_eq_some found with ⟨rfl, mine⟩ | ⟨_, present⟩
    · exact holds job mine
    · exact ⟨job, present, rfl⟩
  refine ⟨?_, ?_, ?_, sound_update owned moved sound⟩
  · intro other job found
    rcases held other job found with ⟨before, present, same⟩
    rw [← same]
    exact status _ _ (owned.running other before present)
  · intro first second left right inFirst inSecond same
    rcases held first left inFirst with ⟨beforeLeft, presentLeft, sameLeft⟩
    rcases held second right inSecond with ⟨beforeRight, presentRight, sameRight⟩
    exact owned.apart first second beforeLeft beforeRight presentLeft presentRight
      (sameLeft.trans (same.trans sameRight.symm))
  · exact fun id present => status id _ (owned.cancelled id (cancelled ▸ present))

/-- A save of a job that is queued, or that the call has in hand. -/
private theorem Owned.save {before after : Scheduling Call} {call : Call}
    {phase : SchedulerPhase} {job : ScheduledJob} (owned : before.Owned)
    (moved : after.phase = Function.update before.phase call (some phase))
    (status : ∀ id, after.statusOf id =
      if id = job.id then some job.status else before.statusOf id)
    (cancelled : ∀ id ∈ after.cancelled, id ∈ before.cancelled ∨
      (id = job.id ∧ job.status = .cancelled))
    (sound : phase.Sound)
    (free : before.statusOf job.id = some .queued ∨
      ∃ held, before.handles call = some held ∧ held.id = job.id)
    (holds : ∀ next, phase.inHand = some next → next.id = job.id ∧ job.status = .running) :
    after.Owned := by
  -- No other call has the job in hand, and it is not a cancelled one.
  have others : ∀ other held, other ≠ call → before.handles other = some held →
      held.id ≠ job.id := by
    intro other held differs present same
    rcases free with queued | ⟨mine, inHand, mineId⟩
    · have running := owned.running other held present
      rw [same, queued] at running
      cases running
    · exact differs (owned.apart other call held mine present inHand
        (same.trans mineId.symm))
  have live : job.id ∉ before.cancelled := by
    intro present
    have dead := owned.cancelled job.id present
    rcases free with queued | ⟨mine, inHand, mineId⟩
    · rw [queued] at dead
      cases dead
    · have running := owned.running call mine inHand
      rw [mineId, dead] at running
      cases running
  refine ⟨?_, ?_, ?_, sound_update owned moved sound⟩
  · intro other held found
    rw [handles_update moved] at found
    rcases update_eq_some found with ⟨_, mine⟩ | ⟨differs, present⟩
    · rcases holds held mine with ⟨same, running⟩
      rw [status, if_pos same, running]
    · rw [status, if_neg (others other held differs present)]
      exact owned.running other held present
  · intro first second left right inFirst inSecond same
    rw [handles_update moved] at inFirst inSecond
    rcases update_eq_some inFirst with ⟨rfl, mine⟩ | ⟨differs, present⟩ <;>
      rcases update_eq_some inSecond with ⟨rfl, mineToo⟩ | ⟨differsToo, presentToo⟩
    · rfl
    · exact absurd (same.symm.trans (holds left mine).1)
        (others second right differsToo presentToo)
    · exact absurd (same.trans (holds right mineToo).1) (others first left differs present)
    · exact owned.apart first second left right present presentToo same
  · intro id present
    rw [status]
    rcases cancelled id present with before | ⟨rfl, now⟩
    · rw [if_neg fun same : id = job.id => live (same ▸ before)]
      exact owned.cancelled id before
    · rw [if_pos rfl, now]

theorem statusOf_save (state : Scheduling Call) (call : Call) (now : Int)
    (job : ScheduledJob) (next : ScheduledJob → SchedulerPhase) (id : String) :
    (state.save call now job next).statusOf id =
      if id = job.id then some job.status else state.statusOf id := by
  simp only [statusOf, save_get]
  split <;> rfl

private theorem Owned.saved {state : Scheduling Call} {call : Call} {now : Int}
    {job : ScheduledJob} {next : ScheduledJob → SchedulerPhase} (owned : state.Owned)
    (free : state.statusOf job.id = some .queued ∨
      ∃ held, state.handles call = some held ∧ held.id = job.id)
    (sound : (next (Entity.touch now job)).Sound)
    (holds : ∀ held, (next (Entity.touch now job)).inHand = some held →
      held.id = job.id ∧ job.status = .running) : (state.save call now job next).Owned :=
  owned.save (save_phase ..) (statusOf_save state call now job next)
    (fun _ present => .inl present) sound free holds

/-- A phase in which the call has no job in hand. -/
private theorem Owned.drop {before after : Scheduling Call} {call : Call}
    {phase : SchedulerPhase} (owned : before.Owned)
    (moved : after.phase = Function.update before.phase call (some phase))
    (table : after.table = before.table) (cancelled : after.cancelled = before.cancelled)
    (sound : phase.Sound) (none : phase.inHand = none) : after.Owned := by
  apply owned.move moved _ cancelled sound
  · simp [none]
  · intro id value found
    rwa [statusOf, table]

/-- A phase in which the call keeps its job in hand. -/
private theorem Owned.hold {before after : Scheduling Call} {call : Call}
    {current phase : SchedulerPhase} {job held : ScheduledJob} (owned : before.Owned)
    (found : before.phase call = some current) (inHand : current.inHand = some held)
    (moved : after.phase = Function.update before.phase call (some phase))
    (table : after.table = before.table) (cancelled : after.cancelled = before.cancelled)
    (sound : phase.Sound) (holds : phase.inHand = some job) (same : held.id = job.id) :
    after.Owned := by
  apply owned.move moved _ cancelled sound
  · intro other present
    rw [holds, Option.some.injEq] at present
    exact ⟨held, by rw [handles, found, Option.bind_some, inHand], same.trans (present ▸ rfl)⟩
  · intro id value found
    rwa [statusOf, table]

private theorem Owned.listForSubmit {state : Scheduling Call} {call : Call}
    (owned : state.Owned) (job : ScheduledJob) : (state.listForSubmit call job).Owned := by
  unfold Scheduling.listForSubmit
  split
  · exact owned.drop rfl rfl rfl trivial rfl
  · split <;> exact owned.drop rfl rfl rfl trivial rfl

private theorem Owned.readyOne {setup : Setup} {state : Scheduling Call} {call : Call}
    {now moment : Int} {byId rest ready : List ScheduledJob} {job : ScheduledJob}
    (owned : state.Owned)
    (queued : job.fails moment = true → state.statusOf job.id = some .queued) :
    (state.readyOne setup call now moment byId rest ready job).Owned := by
  unfold Scheduling.readyOne
  split
  · next fails =>
      exact owned.saved (.inl (queued fails)) trivial (by simp [SchedulerPhase.inHand])
  · split <;> exact owned.drop rfl rfl rfl trivial rfl

/-- The first save of `_run_one` takes the job in hand. -/
private theorem Owned.start {setup : Setup} {state : Scheduling Call} {call : Call}
    {now : Int} {job : ScheduledJob} {rest ran : List ScheduledJob} (owned : state.Owned)
    (queued : state.statusOf job.id = some .queued) :
    (state.save call now job.started (afterStart setup rest ran)).Owned := by
  refine owned.saved (.inl queued) ?_ ?_
  · unfold afterStart
    split
    · rfl
    · trivial
  · intro held found
    unfold afterStart at found
    split at found <;> cases found <;> exact ⟨rfl, rfl⟩

/-- `cancel` saves the job it has read. -/
private theorem Owned.cancel {state : Scheduling Call} {call : Call} {now : Int}
    {job : ScheduledJob} (owned : state.Owned) (status : job.status = .cancelled)
    (queued : state.statusOf job.id = some .queued) :
    (Scheduling.save { state with cancelled := state.cancelled ++ [job.id] } call now job
      fun job => .finished (.ok [job])).Owned := by
  refine owned.save (save_phase ..) (statusOf_save _ call now job _) ?_ trivial
    (.inl queued) (by simp [SchedulerPhase.inHand])
  intro id present
  simp only [save_cancelled, List.mem_append, List.mem_singleton] at present
  exact present.imp_right fun same => ⟨same, status⟩

private theorem Owned.advance {setup : Setup} {before after : Scheduling Call} {call : Call}
    {now : Int} {phase : SchedulerPhase} (owned : before.Owned)
    (current : before.phase call = some phase)
    (queued : before.SavesQueued (.advance call now))
    (advanced : before.advance setup call now phase = some after) : after.Owned := by
  have inHand : before.handles call = phase.inHand := by
    rw [handles, current, Option.bind_some]
  have sound := owned.sound call phase current
  simp only [SavesQueued, current] at queued
  cases phase with
  | submitting job =>
      simp only [Scheduling.advance] at advanced
      split at advanced
      · cases advanced
      · cases advanced
        exact owned.listForSubmit job
  | creating job =>
      simp only [Scheduling.advance] at advanced
      split at advanced
      · cases advanced
        exact owned.drop rfl rfl rfl trivial rfl
      · next table created written =>
          cases advanced
          refine owned.move rfl ?_ rfl trivial (by simp [SchedulerPhase.inHand])
          intro id value found
          exact statusOf_create written found rfl
  | requiring jobId =>
      simp only [Scheduling.advance] at advanced
      split at advanced
      · cases advanced
        exact owned.drop rfl rfl rfl trivial rfl
      · next job required =>
          cases advanced
          exact owned.drop rfl rfl rfl (status_of_requireQueued required) rfl
  | cancelling job =>
      cases advanced
      exact owned.cancel sound (queued job.id rfl)
  | listing moment =>
      cases advanced
      exact owned.drop rfl rfl rfl trivial rfl
  | readying moment byId rest ready =>
      cases rest with
      | nil =>
          cases advanced
          exact owned.drop rfl rfl rfl trivial rfl
      | cons job rest =>
          cases advanced
          apply owned.readyOne
          intro fails
          exact queued job.id (by simp [SchedulerPhase.savesQueued, fails])
  | running rest ran =>
      cases rest with
      | nil =>
          cases advanced
          exact owned.drop rfl rfl rfl trivial rfl
      | cons job rest =>
          cases advanced
          exact owned.start (queued job.id rfl)
  | routed job rest ran =>
      cases advanced
      apply owned.saved (.inr ⟨job, inHand, rfl⟩) sound
      rintro held ⟨_⟩
      exact ⟨rfl, sound⟩
  | requeueing job rest ran =>
      cases advanced
      exact owned.saved (.inr ⟨job, inHand, rfl⟩) trivial (by simp [SchedulerPhase.inHand])
  | finishing job rest ran =>
      cases advanced
      exact owned.saved (.inr ⟨job, inHand, rfl⟩) trivial (by simp [SchedulerPhase.inHand])
  | resuming => cases sound
  | resetting rest reset => cases sound
  | routing job rest ran => cases advanced
  | dispatching job rest ran => cases advanced
  | awaiting job rest ran => cases advanced
  | finished result => cases advanced

private theorem Owned.begin {before after : Scheduling Call} {call : Call}
    {phase : SchedulerPhase} (owned : before.Owned)
    (begun : before.begin call phase = some after) (sound : phase.Sound)
    (none : phase.inHand = none) : after.Owned := by
  unfold Scheduling.begin at begun
  split at begun
  · cases begun
    exact owned.drop rfl rfl rfl sound none
  · cases begun

private theorem Owned.afterDispatch {state : Scheduling Call} {call : Call}
    {job : ScheduledJob} {rest ran : List ScheduledJob} {answer : Except String String}
    (owned : state.Owned) (current : state.phase call = some (.awaiting job rest ran)) :
    (state.moveTo call (Scheduling.afterDispatch job rest ran answer)).Owned := by
  cases answer with
  | ok summary => exact owned.hold current rfl rfl rfl rfl trivial rfl rfl
  | error raised =>
      unfold Scheduling.afterDispatch
      dsimp only
      split <;> exact owned.hold current rfl rfl rfl rfl trivial rfl rfl

/-- One step keeps the invariant. -/
theorem Owned.step {setup : Setup} {before after : Scheduling Call}
    {action : SchedulerAction Call} (owned : before.Owned)
    (queued : before.SavesQueued action)
    (stepped : Scheduling.step setup before action = some after) : after.Owned := by
  cases action with
  | submit call job =>
      simp only [Scheduling.step] at stepped
      split at stepped <;> exact owned.begin stepped trivial rfl
  | cancel call jobId => exact owned.begin stepped trivial rfl
  | tick call moment => exact owned.begin stepped trivial rfl
  | resumeInterrupted call => cases queued
  | advance call now =>
      simp only [Scheduling.step] at stepped
      split at stepped
      · cases stepped
      · next phase current => exact owned.advance current queued stepped
  | route call answer =>
      simp only [Scheduling.step] at stepped
      split at stepped
      · next job rest ran provider current =>
          cases stepped
          exact owned.hold current rfl rfl rfl rfl
            (owned.sound call (.routing job rest ran) current) rfl rfl
      · next job rest ran raised current =>
          cases stepped
          exact owned.hold current rfl rfl rfl rfl trivial rfl rfl
      · cases stepped
  | dispatch call =>
      simp only [Scheduling.step] at stepped
      split at stepped
      · next job rest ran current =>
          cases stepped
          exact owned.hold current rfl rfl rfl rfl
            (owned.sound call (.dispatching job rest ran) current) rfl rfl
      · cases stepped
  | dispatched call answer =>
      simp only [Scheduling.step] at stepped
      split at stepped
      · next job rest ran current =>
          cases stepped
          exact owned.afterDispatch current
      · cases stepped
  | raise call error =>
      simp only [Scheduling.step] at stepped
      split at stepped
      · cases stepped
      · cases stepped
      · cases stepped
        exact owned.drop rfl rfl rfl trivial rfl
      · cases stepped
        exact owned.drop rfl rfl rfl trivial rfl
  | crash =>
      cases stepped
      exact ⟨by simp [handles], by simp [handles], owned.cancelled, by simp⟩

/-- One step forgets no cancellation and dispatches no cancelled job. -/
theorem Owned.keepsCancelled {setup : Setup} {before after : Scheduling Call}
    {action : SchedulerAction Call} (owned : before.Owned)
    (stepped : Scheduling.step setup before action = some after) :
    before.KeepsCancelled after := by
  cases action with
  | dispatch call =>
      simp only [Scheduling.step] at stepped
      split at stepped
      · next job rest ran current =>
          cases stepped
          intro id present
          have running := owned.running call job (by simp [handles, current, SchedulerPhase.inHand])
          have differs : job.id ≠ id := by
            rintro rfl
            rw [owned.cancelled job.id present] at running
            cases running
          exact ⟨present, by simp [moveTo, List.count_append, differs]⟩
      · cases stepped
  | _ =>
      have frame := step_frame stepped (by simp)
      exact fun id present => ⟨frame.2 id present, by rw [frame.1]⟩

/-- In every run whose saves of queued jobs find them queued, a job whose `cancel` has
returned stays CANCELLED and is not dispatched any more. -/
theorem cancelled_of_savesQueued {setup : Setup} {table : SnapshotTable ScheduledJob}
    {earlier later : List (SchedulerAction Call)} {middle final : Scheduling Call}
    (queued : StepFunction.Meets (step setup) SavesQueued (start table) (earlier ++ later))
    (reached : StepFunction.run (step setup) (start table) earlier = some middle)
    (continued : StepFunction.run (step setup) middle later = some final) :
    ∀ id ∈ middle.cancelled, final.statusOf id = some .cancelled ∧
      final.dispatched.count id = middle.dispatched.count id := by
  rcases StepFunction.meets_append.mp queued with ⟨front, back⟩
  have owned : middle.Owned :=
    StepFunction.invariant_of_meets
      (fun _ _ _ owned queued stepped => Owned.step owned queued stepped)
      (owned_start table) front reached
  have ended : final.Owned :=
    StepFunction.invariant_of_meets
      (fun _ _ _ owned queued stepped => Owned.step owned queued stepped)
      owned (back middle reached) continued
  have kept : middle.KeepsCancelled final :=
    StepFunction.related_of_meets Owned KeepsCancelled.refl
      (fun _ _ _ => KeepsCancelled.trans)
      (fun _ _ _ owned queued stepped =>
        ⟨Owned.step owned queued stepped, Owned.keepsCancelled owned stepped⟩)
      owned (back middle reached) continued
  intro id present
  rcases kept id present with ⟨still, count⟩
  exact ⟨ended.cancelled id still, count⟩

/-- Two queued jobs. -/
def twoJobs : SnapshotTable ScheduledJob where
  name := "scheduler_jobs"
  rows :=
    [{ id := "first", createdAt := 0, updatedAt := 0 },
      { id := "second", createdAt := 1, updatedAt := 1 }]
  distinct := by decide

/-- The first call ticks; the dispatch of the first job cancels the second one. -/
def untilCancelled : List (SchedulerAction Bool) :=
  [.tick false 2, .advance false 2, .advance false 2, .advance false 2, .advance false 2,
    .advance false 3, .route false (.ok "local"), .advance false 4, .dispatch false,
    .cancel true "second", .advance true 5, .advance true 5]

/-- The tick goes on. -/
def untilDispatched : List (SchedulerAction Bool) :=
  [.dispatched false (.ok "done"), .advance false 6, .advance false 7,
    .route false (.ok "local"), .advance false 8, .dispatch false]

theorem untilDispatched_dispatches_cancelled :
    ∃ middle final,
      StepFunction.run (step {}) (start twoJobs) untilCancelled = some middle ∧
      StepFunction.run (step {}) middle untilDispatched = some final ∧
      "second" ∈ middle.cancelled ∧ middle.statusOf "second" = some .cancelled ∧
      final.statusOf "second" = some .running ∧
      "second" ∉ middle.dispatched ∧ "second" ∈ final.dispatched := by
  refine ⟨_, _, rfl, rfl, ?_⟩
  decide +kernel

/-- The second job is cancelled before the tick begins. -/
def cancelledFirst : List (SchedulerAction Bool) :=
  [.cancel true "second", .advance true 1, .advance true 1]

def thenTicked : List (SchedulerAction Bool) :=
  [.tick false 2, .advance false 2, .advance false 2, .advance false 2, .advance false 2,
    .advance false 3, .route false (.ok "local"), .advance false 4, .dispatch false,
    .dispatched false (.ok "done"), .advance false 5, .advance false 6]

theorem cancelled_of_cancelledFirst :
    ∃ middle final,
      StepFunction.run (step {}) (start twoJobs) cancelledFirst = some middle ∧
      StepFunction.run (step {}) middle thenTicked = some final ∧
      ∀ id ∈ middle.cancelled, final.statusOf id = some .cancelled ∧
        final.dispatched.count id = middle.dispatched.count id :=
  ⟨_, _, rfl, rfl, @cancelled_of_savesQueued Bool _ {} twoJobs cancelledFirst thenTicked _ _
    (by decide +kernel) rfl rfl⟩

end Scheduling

end Raphael.Scheduler
