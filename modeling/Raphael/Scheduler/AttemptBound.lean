import Mathlib.Data.Fintype.Basic
import Raphael.Foundation.SlotTable
import Raphael.Scheduler.Scheduler

/-! # The bound on attempts

How often a job is dispatched, against the attempts counted on the job objects and
in the table. Crashes and recoveries may fall anywhere. -/

namespace Raphael.Scheduler

open Foundation Persistence

/-- The phases of `tick` and `resume_interrupted`. -/
def SchedulerPhase.drives : SchedulerPhase → Bool
  | .submitting _ | .creating _ | .requiring _ | .cancelling _ | .finished _ => false
  | _ => true

namespace Scheduling

variable {Call : Type u}

/-- How often the job was dispatched. -/
def times (state : Scheduling Call) (id : String) : Int := state.dispatched.count id

/-- Jobs are submitted with a counter that is not negative, ticks and recoveries do not
overlap, and no recovery puts a job back into the queue that was dispatched as often as
it may be. -/
def ResetsUnexhausted (state : Scheduling Call) : SchedulerAction Call → Prop
  | .submit _ job => 0 ≤ job.attempts
  | .tick _ _ | .resumeInterrupted _ =>
      ∀ other phase, state.phase other = some phase → phase.drives = false
  | .advance call _ =>
      match state.phase call with
      | some (.resetting (job :: _) _) =>
          job.status = .running → state.times job.id < job.maxAttempts
      | _ => True
  | _ => True

instance [Fintype Call] (state : Scheduling Call) (action : SchedulerAction Call) :
    Decidable (state.ResetsUnexhausted action) := by
  have idle : Decidable (∀ other phase, state.phase other = some phase →
      phase.drives = false) :=
    decidable_of_iff (∀ other, (state.phase other).any SchedulerPhase.drives = false)
      (forall_congr' fun other => by cases state.phase other <;> simp)
  unfold ResetsUnexhausted
  split
  · infer_instance
  · exact idle
  · exact idle
  · split <;> infer_instance
  · infer_instance

/-! ## The invariant -/

/-- The table bounds the dispatches of the job. -/
def StoredOk (state : Scheduling Call) (id : String) (job : ScheduledJob) : Prop :=
  state.times id ≤ job.maxAttempts ∧
    (job.status ≠ .cancelled → state.times id ≤ job.attempts) ∧
    (job.status = .queued → state.times id < job.maxAttempts)

/-- The stored job has the limit of the job object. -/
def SameLimit (state : Scheduling Call) (job : ScheduledJob) : Prop :=
  ∃ stored, state.table.get job.id = some stored ∧ stored.maxAttempts = job.maxAttempts

/-- A job object that was loaded while the job was queued. -/
def Waiting (state : Scheduling Call) (job : ScheduledJob) : Prop :=
  state.SameLimit job ∧ state.times job.id ≤ job.attempts ∧
    state.times job.id < job.maxAttempts

def Queue (state : Scheduling Call) (rest : List ScheduledJob) : Prop :=
  (rest.map ScheduledJob.id).Nodup ∧ ∀ job ∈ rest, state.Waiting job

/-- The job is about to be dispatched. -/
structure InHand (state : Scheduling Call) (job : ScheduledJob) (rest : List ScheduledJob) :
    Prop where
  running : job.status = .running
  attempts : state.times job.id < job.attempts
  limit : state.times job.id < job.maxAttempts
  stored : ∃ stored, state.table.get job.id = some stored ∧
    stored.maxAttempts = job.maxAttempts ∧
    (stored.status = .cancelled ∨
      (stored.status = .running ∧ stored.attempts = job.attempts))
  apart : job.id ∉ rest.map ScheduledJob.id
  queue : state.Queue rest

/-- The job was dispatched, or will not be. -/
structure Done (state : Scheduling Call) (job : ScheduledJob) (rest : List ScheduledJob) :
    Prop where
  sameLimit : state.SameLimit job
  attempts : state.times job.id ≤ job.attempts
  limit : state.times job.id ≤ job.maxAttempts
  queue : state.Queue rest

def PhaseLimited (state : Scheduling Call) : SchedulerPhase → Prop
  | .submitting job | .creating job => 0 ≤ job.attempts ∧ 1 ≤ job.maxAttempts
  | .cancelling job => state.SameLimit job ∧ job.status = .cancelled
  | .readying _ _ rest ready =>
      ((ready ++ rest).map ScheduledJob.id).Nodup ∧ (∀ job ∈ ready, state.Waiting job) ∧
        ∀ job ∈ rest, state.SameLimit job ∧ (job.status = .queued → state.Waiting job)
  | .running rest _ => state.Queue rest
  | .routing job rest _ | .routed job rest _ | .dispatching job rest _ =>
      state.InHand job rest
  | .awaiting job rest _ => state.Done job rest
  | .requeueing job rest _ =>
      state.Done job rest ∧ state.times job.id < job.maxAttempts ∧ job.status = .queued
  | .finishing job rest _ => state.Done job rest ∧ job.status ≠ .queued
  | .resetting rest _ =>
      ∀ job ∈ rest, state.SameLimit job ∧
        (job.status = .running → state.times job.id ≤ job.attempts)
  | .requiring _ | .listing _ | .resuming | .finished _ => True

structure Limited (state : Scheduling Call) : Prop where
  stored : ∀ id job, state.table.get id = some job → state.StoredOk id job
  known : ∀ id ∈ state.dispatched, ∃ job, state.table.get id = some job
  single : ∀ first second left right, state.phase first = some left →
    state.phase second = some right → left.drives = true → right.drives = true →
    first = second
  phases : ∀ call phase, state.phase call = some phase → state.PhaseLimited phase

theorem limited_start : (start (.empty "scheduler_jobs") : Scheduling Call).Limited where
  stored := by simp [start]
  known := by simp [start]
  single := by simp [start]
  phases := by simp [start]

theorem maxAttempts_of_validate {job : ScheduledJob} (valid : validate job = .ok ()) :
    1 ≤ job.maxAttempts := by
  unfold validate at valid
  split at valid
  · cases valid
  · next enough => omega

/-! ## What a step leaves to the other calls -/

/-- Every stored job stays stored, under its limit. -/
def KeepsLimits (before after : Scheduling Call) : Prop :=
  ∀ id stored, before.table.get id = some stored →
    ∃ later, after.table.get id = some later ∧ later.maxAttempts = stored.maxAttempts

/-- Nothing is dispatched, and a stored job stays as it is or is cancelled. -/
structure Quiet (before after : Scheduling Call) : Prop where
  dispatched : after.dispatched = before.dispatched
  stored : ∀ id stored, before.table.get id = some stored →
    ∃ later, after.table.get id = some later ∧
      later.maxAttempts = stored.maxAttempts ∧ (later = stored ∨ later.status = .cancelled)

variable {before after : Scheduling Call} {job : ScheduledJob} {rest : List ScheduledJob}

theorem Quiet.keepsLimits (quiet : before.Quiet after) : before.KeepsLimits after := by
  intro id stored found
  rcases quiet.stored id stored found with ⟨later, present, limit, _⟩
  exact ⟨later, present, limit⟩

theorem Quiet.times (quiet : before.Quiet after) (id : String) :
    after.times id = before.times id := by
  rw [Scheduling.times, Scheduling.times, quiet.dispatched]

theorem SameLimit.keeps (same : before.SameLimit job) (keeps : before.KeepsLimits after) :
    after.SameLimit job := by
  rcases same with ⟨stored, found, limit⟩
  rcases keeps job.id stored found with ⟨later, present, kept⟩
  exact ⟨later, present, kept.trans limit⟩

theorem Waiting.keeps (waiting : before.Waiting job) (keeps : before.KeepsLimits after)
    (times : after.times job.id = before.times job.id) : after.Waiting job :=
  ⟨waiting.1.keeps keeps, times ▸ waiting.2.1, times ▸ waiting.2.2⟩

theorem Queue.keeps (queue : before.Queue rest) (keeps : before.KeepsLimits after)
    (times : ∀ job ∈ rest, after.times job.id = before.times job.id) : after.Queue rest :=
  ⟨queue.1, fun job present => (queue.2 job present).keeps keeps (times job present)⟩

theorem Done.keeps (done : before.Done job rest) (keeps : before.KeepsLimits after)
    (times : ∀ id, after.times id = before.times id) : after.Done job rest where
  sameLimit := done.sameLimit.keeps keeps
  attempts := times job.id ▸ done.attempts
  limit := times job.id ▸ done.limit
  queue := done.queue.keeps keeps fun job _ => times job.id

theorem InHand.quiet (inHand : before.InHand job rest) (quiet : before.Quiet after) :
    after.InHand job rest where
  running := inHand.running
  attempts := quiet.times job.id ▸ inHand.attempts
  limit := quiet.times job.id ▸ inHand.limit
  stored := by
    rcases inHand.stored with ⟨stored, found, limit, still⟩
    rcases quiet.stored job.id stored found with ⟨later, present, kept, same | dead⟩
    · exact ⟨later, present, kept.trans limit, same ▸ still⟩
    · exact ⟨later, present, kept.trans limit, .inl dead⟩
  apart := inHand.apart
  queue := inHand.queue.keeps quiet.keepsLimits fun job _ => quiet.times job.id

private theorem sameLimit_of_get {id : String} {stored : ScheduledJob}
    (found : before.table.get id = some stored) : before.SameLimit stored :=
  have same : stored.id = id := SnapshotTable.id_of_get found
  ⟨stored, same ▸ found, rfl⟩

/-- A listed job that is queued waits. -/
private theorem waiting_of_listed (limited : before.Limited)
    (listed : job ∈ before.table.list) : before.SameLimit job ∧
      (job.status = .queued → before.Waiting job) ∧
      (job.status = .running → before.times job.id ≤ job.attempts) := by
  have found : before.table.get job.id = some job :=
    SnapshotTable.get_eq_some_iff.mpr ⟨SnapshotTable.mem_list.mp listed, rfl⟩
  have ok := limited.stored job.id job found
  have same := sameLimit_of_get found
  refine ⟨same, fun queued => ⟨same, ok.2.1 (by simp [queued]), ok.2.2 queued⟩, fun running => ?_⟩
  exact ok.2.1 (by simp [running])

/-- A quiet step keeps what any call relies on. -/
theorem PhaseLimited.quiet {phase : SchedulerPhase} (limited : before.PhaseLimited phase)
    (quiet : before.Quiet after) : after.PhaseLimited phase := by
  have keeps := quiet.keepsLimits
  cases phase with
  | cancelling job => exact ⟨limited.1.keeps keeps, limited.2⟩
  | readying moment byId rest ready =>
      refine ⟨limited.1, fun job present => ?_, fun job present => ?_⟩
      · exact (limited.2.1 job present).keeps keeps (quiet.times job.id)
      · rcases limited.2.2 job present with ⟨same, waits⟩
        exact ⟨same.keeps keeps, fun queued => (waits queued).keeps keeps (quiet.times job.id)⟩
  | running rest ran => exact Queue.keeps limited keeps fun job _ => quiet.times job.id
  | routing job rest ran => exact InHand.quiet limited quiet
  | routed job rest ran => exact InHand.quiet limited quiet
  | dispatching job rest ran => exact InHand.quiet limited quiet
  | awaiting job rest ran => exact Done.keeps limited keeps quiet.times
  | requeueing job rest ran =>
      exact ⟨limited.1.keeps keeps quiet.times, quiet.times job.id ▸ limited.2.1, limited.2.2⟩
  | finishing job rest ran => exact ⟨limited.1.keeps keeps quiet.times, limited.2⟩
  | resetting rest reset =>
      intro job present
      rcases limited job present with ⟨same, counted⟩
      exact ⟨same.keeps keeps, quiet.times job.id ▸ counted⟩
  | submitting | creating => exact limited
  | requiring | listing | resuming | finished => trivial

/-- Submissions and cancellations rely on the limits alone. -/
theorem PhaseLimited.idle {phase : SchedulerPhase} (limited : before.PhaseLimited phase)
    (keeps : before.KeepsLimits after) (idle : phase.drives = false) :
    after.PhaseLimited phase := by
  cases phase with
  | cancelling job => exact ⟨limited.1.keeps keeps, limited.2⟩
  | submitting | creating => exact limited
  | requiring | finished => trivial
  | _ => cases idle

/-! ## Steps -/

variable {call : Call} {old next : SchedulerPhase}

/-- Only the call itself is a tick or a recovery. -/
private theorem Limited.alone (limited : before.Limited)
    (current : before.phase call = some old) (drives : old.drives = true) :
    ∀ other phase, before.phase other = some phase → phase.drives = true → other = call :=
  fun other phase found alsoDrives =>
    limited.single other call phase old found current alsoDrives drives

variable [DecidableEq Call]

private theorem Limited.update (limited : before.Limited)
    (moved : after.phase = Function.update before.phase call (some next))
    (stored : ∀ id job, after.table.get id = some job → after.StoredOk id job)
    (known : ∀ id ∈ after.dispatched, ∃ job, after.table.get id = some job)
    (others : ∀ other phase, other ≠ call → before.phase other = some phase →
      after.PhaseLimited phase)
    (single : next.drives = true → ∀ other phase, before.phase other = some phase →
      phase.drives = true → other = call)
    (ok : after.PhaseLimited next) : after.Limited where
  stored := stored
  known := known
  single := by
    intro first second left right inFirst inSecond leftDrives rightDrives
    rw [moved] at inFirst inSecond
    rcases update_eq_some inFirst with ⟨rfl, mine⟩ | ⟨_, present⟩ <;>
      rcases update_eq_some inSecond with ⟨rfl, mineToo⟩ | ⟨_, presentToo⟩
    · rfl
    · rw [Option.some.injEq] at mine
      exact (single (mine ▸ leftDrives) second right presentToo rightDrives).symm
    · rw [Option.some.injEq] at mineToo
      exact single (mineToo ▸ rightDrives) first left present leftDrives
    · exact limited.single first second left right present presentToo leftDrives rightDrives
  phases := by
    intro other phase found
    rw [moved] at found
    rcases update_eq_some found with ⟨_, same⟩ | ⟨differs, present⟩
    · exact Option.some.inj same ▸ ok
    · exact others other phase differs present

/-- A step that dispatches nothing and leaves or cancels stored jobs. -/
private theorem Limited.quiet (limited : before.Limited)
    (moved : after.phase = Function.update before.phase call (some next))
    (quiet : before.Quiet after)
    (stored : ∀ id job, after.table.get id = some job → after.StoredOk id job)
    (single : next.drives = true → ∀ other phase, before.phase other = some phase →
      phase.drives = true → other = call)
    (ok : after.PhaseLimited next) : after.Limited := by
  refine limited.update moved stored ?_ ?_ single ok
  · intro id present
    rw [quiet.dispatched] at present
    rcases limited.known id present with ⟨job, found⟩
    rcases quiet.stored id job found with ⟨later, held, _⟩
    exact ⟨later, held⟩
  · exact fun other phase _ found => (limited.phases other phase found).quiet quiet

/-- A step that leaves the table alone and dispatches nothing. -/
private theorem Limited.move (limited : before.Limited)
    (moved : after.phase = Function.update before.phase call (some next))
    (table : after.table = before.table) (dispatched : after.dispatched = before.dispatched)
    (single : next.drives = true → ∀ other phase, before.phase other = some phase →
      phase.drives = true → other = call)
    (ok : before.PhaseLimited next) : after.Limited := by
  have quiet : before.Quiet after :=
    ⟨dispatched, fun id stored found => ⟨stored, table ▸ found, rfl, .inl rfl⟩⟩
  refine limited.quiet moved quiet ?_ single (ok.quiet quiet)
  intro id job found
  rw [table] at found
  have ok := limited.stored id job found
  simpa only [StoredOk, quiet.times] using ok

/-- The same of a call that is no tick or recovery, or no longer. -/
private theorem Limited.idle (limited : before.Limited)
    (moved : after.phase = Function.update before.phase call (some next))
    (table : after.table = before.table) (dispatched : after.dispatched = before.dispatched)
    (idle : next.drives = false) (ok : before.PhaseLimited next) : after.Limited := by
  apply limited.move moved table dispatched _ ok
  intro drives
  rw [idle] at drives
  cases drives

/-- A step of a tick or a recovery: the other calls rely on the limits alone. -/
private theorem Limited.drive (limited : before.Limited)
    (current : before.phase call = some old) (drives : old.drives = true)
    (moved : after.phase = Function.update before.phase call (some next))
    (keeps : before.KeepsLimits after)
    (stored : ∀ id job, after.table.get id = some job → after.StoredOk id job)
    (known : ∀ id ∈ after.dispatched, ∃ job, after.table.get id = some job)
    (ok : after.PhaseLimited next) : after.Limited := by
  have alone := limited.alone current drives
  refine limited.update moved stored known ?_ (fun _ => alone) ok
  intro other phase differs found
  apply (limited.phases other phase found).idle keeps
  by_contra alsoDrives
  exact differs (alone other phase found (by simpa using alsoDrives))

section Saving

variable {now : Int} {phase : ScheduledJob → SchedulerPhase}

/-- A save of a job under its limit keeps every limit. -/
private theorem keepsLimits_save (same : before.SameLimit job) :
    before.KeepsLimits (before.save call now job phase) := by
  intro id stored found
  rw [save_get]
  split
  · next equal =>
      rcases same with ⟨held, present, limit⟩
      rw [equal, present, Option.some.injEq] at found
      exact ⟨_, rfl, found ▸ limit.symm⟩
  · exact ⟨stored, found, rfl⟩

private theorem stored_save (limited : before.Limited) (ok : before.StoredOk job.id job) :
    ∀ id found, (before.save call now job phase).table.get id = some found →
      (before.save call now job phase).StoredOk id found := by
  intro id found present
  rw [save_get] at present
  split at present
  · next equal =>
      cases present
      exact equal ▸ ok
  · exact limited.stored id found present

private theorem known_save (limited : before.Limited) :
    ∀ id ∈ (before.save call now job phase).dispatched,
      ∃ found, (before.save call now job phase).table.get id = some found := by
  intro id present
  rw [save_get]
  split
  · exact ⟨_, rfl⟩
  · exact limited.known id present

/-- A tick or a recovery saves a job. -/
private theorem Limited.driveSave (limited : before.Limited)
    (current : before.phase call = some old) (drives : old.drives = true)
    (same : before.SameLimit job) (ok : before.StoredOk job.id job)
    (next : (before.save call now job phase).PhaseLimited (phase (Entity.touch now job))) :
    (before.save call now job phase).Limited :=
  limited.drive current drives (save_phase ..) (keepsLimits_save same)
    (stored_save limited ok) (known_save limited) next

end Saving

/-! ### Submissions and cancellations -/

private theorem Limited.listForSubmit (limited : before.Limited)
    (current : before.phase call = some (.submitting job)) :
    (before.listForSubmit call job).Limited := by
  have ok := limited.phases call _ current
  unfold Scheduling.listForSubmit
  split
  · exact limited.idle rfl rfl rfl rfl trivial
  · split
    · exact limited.idle rfl rfl rfl rfl trivial
    · exact limited.idle rfl rfl rfl rfl ok

omit [DecidableEq Call] in
private theorem storedOk_of_fresh {id : String} (fresh : before.times id = 0)
    (attempts : 0 ≤ job.attempts) (limit : 1 ≤ job.maxAttempts) : before.StoredOk id job := by
  simp only [StoredOk, fresh]
  exact ⟨by omega, fun _ => attempts, fun _ => by omega⟩

/-- A created job was never dispatched. -/
private theorem Limited.create {now : Int} {created : ScheduledJob}
    {table : SnapshotTable ScheduledJob} (limited : before.Limited)
    (current : before.phase call = some (.creating job))
    (written : before.table.create now job = .ok (table, created)) :
    (leaveSubmit { before with table } call (.ok [created])).Limited := by
  have ok := limited.phases call _ current
  rcases SnapshotTable.create_eq_ok written with ⟨touched, _, unused⟩
  have fresh : before.times job.id = 0 := by
    rw [Scheduling.times, Int.natCast_eq_zero, List.count_eq_zero]
    intro present
    rcases limited.known job.id present with ⟨held, found⟩
    exact absurd (unused.symm.trans found) (by simp)
  refine limited.quiet rfl ⟨rfl, ?_⟩ ?_ (by simp [SchedulerPhase.drives]) trivial
  · intro id stored found
    refine ⟨stored, ?_, rfl, .inl rfl⟩
    apply (SnapshotTable.get_create written id).trans
    rw [if_neg, found]
    rintro rfl
    exact absurd (unused.symm.trans found) (by simp)
  · intro id found present
    rw [show (leaveSubmit { before with table } call (.ok [created])).table = table from rfl,
      SnapshotTable.get_create written] at present
    split at present
    · next equal =>
        rw [← Option.some.inj present, touched]
        exact storedOk_of_fresh (equal ▸ fresh) ok.1 ok.2
    · exact limited.stored id found present

private theorem Limited.require {jobId : String} (limited : before.Limited)
    (required : before.requireQueued jobId = .ok job) :
    (before.moveTo call (.cancelling job)).Limited := by
  refine limited.idle rfl rfl rfl rfl ?_
  unfold requireQueued at required
  split at required
  · cases required
  · next stored found =>
      split at required
      · cases required
        rcases sameLimit_of_get found with ⟨held, present, limit⟩
        exact ⟨⟨held, present, limit⟩, rfl⟩
      · cases required

private theorem Limited.cancel {now : Int} (limited : before.Limited)
    (current : before.phase call = some (.cancelling job)) :
    (Scheduling.save { before with cancelled := before.cancelled ++ [job.id] } call now job
      fun job => .finished (.ok [job])).Limited := by
  rcases limited.phases call _ current with ⟨⟨held, present, limit⟩, status⟩
  have bound := (limited.stored job.id held present).1
  refine limited.quiet (save_phase ..) ⟨rfl, ?_⟩ ?_ (by simp [SchedulerPhase.drives]) trivial
  · intro id stored found
    rw [save_get]
    split
    · next equal =>
        rw [equal, present, Option.some.injEq] at found
        exact ⟨_, rfl, found ▸ limit.symm, .inr status⟩
    · exact ⟨stored, found, rfl, .inl rfl⟩
  · intro id found stored
    rw [save_get] at stored
    split at stored
    · next equal =>
        cases stored
        refine ⟨?_, fun live => absurd status live, fun queued => ?_⟩
        · rw [limit] at bound
          exact equal ▸ bound
        · exact absurd (status.symm.trans queued) (by simp)
    · exact limited.stored id found stored

/-! ### Ticks -/

private theorem Limited.list {moment : Int} (limited : before.Limited)
    (current : before.phase call = some (.listing moment)) :
    (before.moveTo call (.readying moment before.table.list before.table.list [])).Limited := by
  refine limited.move rfl rfl rfl (fun _ => limited.alone current rfl) ⟨?_, by simp, ?_⟩
  · rw [List.nil_append, (before.table.list_perm.map ScheduledJob.id).nodup_iff]
    exact before.table.distinct
  · intro job listed
    have waiting := waiting_of_listed limited listed
    exact ⟨waiting.1, waiting.2.1⟩

private theorem Limited.readyOne {setup : Setup} {now moment : Int}
    {byId ready : List ScheduledJob} (limited : before.Limited)
    (current : before.phase call = some (.readying moment byId (job :: rest) ready)) :
    (before.readyOne setup call now moment byId rest ready job).Limited := by
  rcases limited.phases call _ current with ⟨distinct, readyWaits, restWaits⟩
  have alone := limited.alone current rfl
  have without : ((ready ++ rest).map ScheduledJob.id).Nodup :=
    distinct.sublist (((List.sublist_cons_self job rest).append_left ready).map _)
  rcases restWaits job List.mem_cons_self with ⟨same, waits⟩
  have others : ∀ other ∈ rest, before.SameLimit other ∧
      (other.status = .queued → before.Waiting other) :=
    fun other present => restWaits other (List.mem_cons_of_mem job present)
  unfold Scheduling.readyOne
  split
  · next fails =>
      have queued : job.status = .queued := by
        simp only [ScheduledJob.fails, Bool.and_eq_true, beq_iff_eq] at fails
        exact fails.1
      rcases waits queued with ⟨_, attempts, limit⟩
      refine limited.driveSave current rfl same ⟨Int.le_of_lt limit, fun _ => attempts,
        fun _ => limit⟩ ⟨without, fun other present => ?_, fun other present => ?_⟩
      · exact (readyWaits other present).keeps (keepsLimits_save same) rfl
      · rcases others other present with ⟨otherSame, otherWaits⟩
        exact ⟨otherSame.keeps (keepsLimits_save same),
          fun queued => (otherWaits queued).keeps (keepsLimits_save same) rfl⟩
  · split
    · next isReady =>
        have queued : job.status = .queued := by
          simp only [ScheduledJob.isReady, Bool.and_eq_true, beq_iff_eq] at isReady
          exact isReady.1.1.1
        refine limited.move rfl rfl rfl (fun _ => alone) ⟨by simpa using distinct, ?_, others⟩
        intro other present
        rcases List.mem_append.mp present with before | here
        · exact readyWaits other before
        · exact List.mem_singleton.mp here ▸ waits queued
    · exact limited.move rfl rfl rfl (fun _ => alone) ⟨without, readyWaits, others⟩

private theorem Limited.sort {moment : Int} {byId ready : List ScheduledJob}
    (limited : before.Limited)
    (current : before.phase call = some (.readying moment byId [] ready)) :
    (before.moveTo call (.running (sortReady ready) [])).Limited := by
  rcases limited.phases call _ current with ⟨distinct, waits, _⟩
  have sorted : (sortReady ready).Perm ready := List.perm_insertionSort _ _
  refine limited.move rfl rfl rfl (fun _ => limited.alone current rfl) ⟨?_, ?_⟩
  · rw [(sorted.map ScheduledJob.id).nodup_iff]
    simpa using distinct
  · exact fun job present => waits job (sorted.subset present)

/-- The first save of `_run_one`. -/
private theorem Limited.startJob {setup : Setup} {now : Int} {ran : List ScheduledJob}
    (limited : before.Limited)
    (current : before.phase call = some (.running (job :: rest) ran)) :
    (before.save call now job.started (afterStart setup rest ran)).Limited := by
  have queue := limited.phases call _ current
  rcases queue.2 job List.mem_cons_self with ⟨same, attempts, limit⟩
  rcases List.nodup_cons.mp queue.1 with ⟨apart, distinct⟩
  have started : before.times job.id < job.attempts + 1 := by omega
  have keeps : before.KeepsLimits
      (before.save call now job.started (afterStart setup rest ran)) :=
    keepsLimits_save same
  have others : Queue (before.save call now job.started (afterStart setup rest ran)) rest :=
    ⟨distinct, fun other present =>
      (queue.2 other (List.mem_cons_of_mem job present)).keeps keeps rfl⟩
  refine limited.driveSave current rfl same
    ⟨Int.le_of_lt limit, fun _ => Int.le_of_lt started, fun _ => limit⟩ ?_
  have stored := save_get_self before call now job.started (afterStart setup rest ran)
  unfold afterStart
  split
  · exact ⟨rfl, started, limit, ⟨_, stored, rfl, .inr ⟨rfl, rfl⟩⟩, apart, others⟩
  · exact ⟨⟨⟨_, stored, rfl⟩, Int.le_of_lt started, Int.le_of_lt limit, others⟩,
      by simp [ScheduledJob.withStatus]⟩

/-- The save of the routed provider. -/
private theorem Limited.saveRouted {now : Int} {ran : List ScheduledJob}
    (limited : before.Limited)
    (current : before.phase call = some (.routed job rest ran)) :
    (before.save call now job fun job => .dispatching job rest ran).Limited := by
  have inHand : before.InHand job rest := limited.phases call _ current
  rcases inHand.stored with ⟨held, found, limit, _⟩
  have same : before.SameLimit job := ⟨held, found, limit⟩
  refine limited.driveSave current rfl same
    ⟨Int.le_of_lt inHand.limit, fun _ => Int.le_of_lt inHand.attempts,
      fun _ => inHand.limit⟩ ?_
  exact ⟨inHand.running, inHand.attempts, inHand.limit,
    ⟨_, save_get_self .., rfl, .inr ⟨inHand.running, rfl⟩⟩, inHand.apart,
    inHand.queue.keeps (keepsLimits_save same) fun _ _ => rfl⟩

/-- The last save of a job in `_run_one`. -/
private theorem Limited.saveDone {now : Int} {ran : List ScheduledJob}
    (limited : before.Limited) (current : before.phase call = some old)
    (drives : old.drives = true) (done : before.Done job rest)
    (queued : job.status = .queued → before.times job.id < job.maxAttempts) :
    (before.save call now job fun job => .running rest (ran ++ [job])).Limited :=
  limited.driveSave current drives done.sameLimit
    ⟨done.limit, fun _ => done.attempts, queued⟩
    (done.queue.keeps (keepsLimits_save done.sameLimit) fun _ _ => rfl)

omit [DecidableEq Call] in
private theorem times_concat (dispatched : after.dispatched = before.dispatched ++ [job.id])
    (id : String) :
    after.times id = before.times id + (if id = job.id then 1 else 0) := by
  simp only [Scheduling.times, dispatched, List.count_append, Int.natCast_add]
  by_cases same : id = job.id
  · subst same
    simp
  · simp [same, Ne.symm same]

omit [DecidableEq Call] in
/-- The stored job allows for the dispatch. -/
private theorem InHand.storedOk (inHand : before.InHand job rest)
    (dispatched : after.dispatched = before.dispatched ++ [job.id]) {found : ScheduledJob}
    (stored : before.table.get job.id = some found) : after.StoredOk job.id found := by
  rcases inHand.stored with ⟨held, present, limit, still⟩
  rw [stored, Option.some.injEq] at present
  subst present
  have times := times_concat dispatched job.id
  rw [if_pos rfl] at times
  have bound := inHand.limit
  have counted := inHand.attempts
  refine ⟨by omega, fun live => ?_, fun queued => ?_⟩
  · rcases still with dead | ⟨_, attempts⟩
    · exact absurd dead live
    · omega
  · rcases still with dead | ⟨running, _⟩
    · exact absurd (dead.symm.trans queued) (by simp)
    · exact absurd (running.symm.trans queued) (by simp)

/-- The dispatch counts against the attempts on the job object. -/
private theorem Limited.dispatch {ran : List ScheduledJob} (limited : before.Limited)
    (current : before.phase call = some (.dispatching job rest ran)) :
    (moveTo { before with dispatched := before.dispatched ++ [job.id] } call
      (.awaiting job rest ran)).Limited := by
  have inHand : before.InHand job rest := limited.phases call _ current
  have times : ∀ id, Scheduling.times (moveTo
      { before with dispatched := before.dispatched ++ [job.id] } call
      (.awaiting job rest ran)) id = before.times id + (if id = job.id then 1 else 0) :=
    times_concat rfl
  have keeps : before.KeepsLimits (moveTo
      { before with dispatched := before.dispatched ++ [job.id] } call
      (.awaiting job rest ran)) := fun _ stored found => ⟨stored, found, rfl⟩
  refine limited.drive current rfl rfl keeps ?_ ?_ ?_
  · intro id found stored
    by_cases same : id = job.id
    · subst same
      exact inHand.storedOk rfl stored
    · have ok := limited.stored id found stored
      simpa only [StoredOk, times, if_neg same, Int.add_zero] using ok
  · intro id present
    rcases List.mem_append.mp present with earlier | here
    · exact limited.known id earlier
    · rcases inHand.stored with ⟨held, found, _⟩
      exact ⟨held, List.mem_singleton.mp here ▸ found⟩
  · have counted := times job.id
    rw [if_pos rfl] at counted
    have attempts := inHand.attempts
    have limit := inHand.limit
    rcases inHand.stored with ⟨held, found, sameLimit, _⟩
    refine ⟨⟨held, found, sameLimit⟩, by omega, by omega,
      inHand.queue.keeps keeps fun other present => ?_⟩
    have differs : other.id ≠ job.id := fun same =>
      inHand.apart (List.mem_map.mpr ⟨other, present, same⟩)
    rw [times, if_neg differs, Int.add_zero]

/-! ### Recoveries -/

private theorem Limited.reset {now : Int} {reset : List ScheduledJob}
    (limited : before.Limited)
    (current : before.phase call = some (.resetting (job :: rest) reset))
    (running : job.status = .running) (limit : before.times job.id < job.maxAttempts) :
    (before.save call now { job with status := .queued }
      fun job => .resetting rest (reset ++ [job])).Limited := by
  have listed : ∀ other ∈ job :: rest, before.SameLimit other ∧
      (other.status = .running → before.times other.id ≤ other.attempts) :=
    limited.phases call _ current
  rcases listed job List.mem_cons_self with ⟨same, attempts⟩
  refine limited.driveSave current rfl same
    ⟨Int.le_of_lt limit, fun _ => attempts running, fun _ => limit⟩ ?_
  intro other present
  rcases listed other (List.mem_cons_of_mem job present) with ⟨otherSame, counted⟩
  exact ⟨otherSame.keeps (keepsLimits_save same), counted⟩

private theorem Limited.resume (limited : before.Limited)
    (current : before.phase call = some .resuming) :
    (before.moveTo call (.resetting before.table.list [])).Limited := by
  refine limited.move rfl rfl rfl (fun _ => limited.alone current rfl) ?_
  intro job listed
  have waiting := waiting_of_listed limited listed
  exact ⟨waiting.1, waiting.2.2⟩

/-! ### All steps -/

private theorem Limited.advance {setup : Setup} {now : Int} {phase : SchedulerPhase}
    (limited : before.Limited) (current : before.phase call = some phase)
    (resets : before.ResetsUnexhausted (.advance call now))
    (advanced : before.advance setup call now phase = some after) : after.Limited := by
  have ok := limited.phases call phase current
  simp only [ResetsUnexhausted, current] at resets
  cases phase with
  | submitting job =>
      simp only [Scheduling.advance] at advanced
      split at advanced <;> cases advanced
      exact limited.listForSubmit current
  | creating job =>
      simp only [Scheduling.advance] at advanced
      split at advanced
      · cases advanced
        exact limited.idle rfl rfl rfl rfl trivial
      · next table created written =>
          cases advanced
          exact limited.create current written
  | requiring jobId =>
      simp only [Scheduling.advance] at advanced
      split at advanced
      · cases advanced
        exact limited.idle rfl rfl rfl rfl trivial
      · next job required =>
          cases advanced
          exact limited.require required
  | cancelling job =>
      cases advanced
      exact limited.cancel current
  | listing moment =>
      cases advanced
      exact limited.list current
  | readying moment byId rest ready =>
      cases rest with
      | nil =>
          cases advanced
          exact limited.sort current
      | cons job rest =>
          cases advanced
          exact limited.readyOne current
  | running rest ran =>
      cases rest with
      | nil =>
          cases advanced
          exact limited.idle rfl rfl rfl rfl trivial
      | cons job rest =>
          cases advanced
          exact limited.startJob current
  | routed job rest ran =>
      cases advanced
      exact limited.saveRouted current
  | requeueing job rest ran =>
      cases advanced
      exact limited.saveDone current rfl ok.1 fun _ => ok.2.1
  | finishing job rest ran =>
      cases advanced
      exact limited.saveDone current rfl ok.1 fun queued => absurd queued ok.2
  | resuming =>
      cases advanced
      exact limited.resume current
  | resetting rest reset =>
      cases rest with
      | nil =>
          cases advanced
          exact limited.idle rfl rfl rfl rfl trivial
      | cons job rest =>
          simp only [Scheduling.advance] at advanced
          split at advanced
          · next running =>
              cases advanced
              have isRunning := beq_iff_eq.mp running
              exact limited.reset current isRunning (resets isRunning)
          · cases advanced
            exact limited.move rfl rfl rfl (fun _ => limited.alone current rfl)
              fun other present => ok other (List.mem_cons_of_mem job present)
  | routing | dispatching | awaiting | finished => cases advanced

private theorem Limited.begin (limited : before.Limited)
    (begun : before.begin call next = some after)
    (single : next.drives = true → ∀ other phase, before.phase other = some phase →
      phase.drives = false) (ok : before.PhaseLimited next) : after.Limited := by
  unfold Scheduling.begin at begun
  split at begun
  · cases begun
    refine limited.move rfl rfl rfl (fun drives other phase found alsoDrives => ?_) ok
    rw [single drives other phase found] at alsoDrives
    cases alsoDrives
  · cases begun

private theorem Limited.afterDispatch {ran : List ScheduledJob}
    {answer : Except String String} (limited : before.Limited)
    (current : before.phase call = some (.awaiting job rest ran)) :
    (before.moveTo call (Scheduling.afterDispatch job rest ran answer)).Limited := by
  have done : before.Done job rest := limited.phases call _ current
  have alone := limited.alone current rfl
  refine limited.move rfl rfl rfl (fun _ => alone) ?_
  have finishes : ∀ status summary, before.Done (job.withStatus status summary) rest :=
    fun _ _ => ⟨done.sameLimit, done.attempts, done.limit, done.queue⟩
  cases answer with
  | ok summary => exact ⟨finishes _ _, by simp [ScheduledJob.withStatus]⟩
  | error raised =>
      unfold Scheduling.afterDispatch
      dsimp only
      split
      · next left => exact ⟨finishes _ _, Int.lt_of_le_of_lt done.attempts left, rfl⟩
      · exact ⟨finishes _ _, by simp [ScheduledJob.withStatus]⟩

/-- One step keeps the invariant. -/
theorem Limited.step {setup : Setup} {action : SchedulerAction Call}
    (limited : before.Limited) (resets : before.ResetsUnexhausted action)
    (stepped : Scheduling.step setup before action = some after) : after.Limited := by
  cases action with
  | submit call job =>
      simp only [Scheduling.step] at stepped
      split at stepped
      · exact limited.begin stepped (by simp [SchedulerPhase.drives]) trivial
      · next valid =>
          exact limited.begin stepped (by simp [SchedulerPhase.drives])
            ⟨resets, maxAttempts_of_validate valid⟩
  | cancel call jobId =>
      exact limited.begin stepped (by simp [SchedulerPhase.drives]) trivial
  | tick call moment => exact limited.begin stepped (fun _ => resets) trivial
  | resumeInterrupted call => exact limited.begin stepped (fun _ => resets) trivial
  | advance call now =>
      simp only [Scheduling.step] at stepped
      split at stepped
      · cases stepped
      · next phase current => exact limited.advance current resets stepped
  | route call answer =>
      simp only [Scheduling.step] at stepped
      split at stepped
      · next job rest ran provider current =>
          cases stepped
          have inHand : before.InHand job rest := limited.phases call _ current
          exact limited.move rfl rfl rfl (fun _ => limited.alone current rfl)
            ⟨inHand.running, inHand.attempts, inHand.limit, inHand.stored, inHand.apart,
              inHand.queue⟩
      · next job rest ran raised current =>
          cases stepped
          have inHand : before.InHand job rest := limited.phases call _ current
          rcases inHand.stored with ⟨held, found, sameLimit, _⟩
          exact limited.move rfl rfl rfl (fun _ => limited.alone current rfl)
            ⟨⟨⟨held, found, sameLimit⟩, Int.le_of_lt inHand.attempts,
              Int.le_of_lt inHand.limit, inHand.queue⟩, by simp [ScheduledJob.withStatus]⟩
      · cases stepped
  | dispatch call =>
      simp only [Scheduling.step] at stepped
      split at stepped
      · next job rest ran current =>
          cases stepped
          exact limited.dispatch current
      · cases stepped
  | dispatched call answer =>
      simp only [Scheduling.step] at stepped
      split at stepped
      · next job rest ran current =>
          cases stepped
          exact limited.afterDispatch current
      · cases stepped
  | raise call error =>
      simp only [Scheduling.step] at stepped
      split at stepped <;> cases stepped <;>
        exact limited.idle rfl rfl rfl rfl trivial
  | crash =>
      cases stepped
      exact ⟨limited.stored, limited.known, by simp, by simp⟩

/-- In every run whose recoveries put no exhausted job back, no job is dispatched more
often than its `max_attempts`. -/
theorem attempts_bounded {setup : Setup} {actions : List (SchedulerAction Call)}
    {state : Scheduling Call}
    (reached : StepFunction.run (step setup) (start (.empty "scheduler_jobs")) actions =
      some state)
    (resets : StepFunction.Meets (step setup) ResetsUnexhausted
      (start (.empty "scheduler_jobs")) actions) :
    ∀ job ∈ state.table.rows, state.dispatched.count job.id ≤ job.maxAttempts := by
  have limited : state.Limited :=
    StepFunction.invariant_of_meets
      (fun _ _ _ limited resets stepped => Limited.step limited resets stepped)
      limited_start resets reached
  intro job present
  have found : state.table.get job.id = some job :=
    SnapshotTable.get_eq_some_iff.mpr ⟨present, rfl⟩
  exact (limited.stored job.id job found).1

/-- A job is submitted, and its dispatch ends with the process; behind the recovery the
next tick dispatches it again. -/
def dispatchedTwice (maxAttempts : Int) : List (SchedulerAction (Fin 4)) :=
  [.submit 0 { id := "job", createdAt := 0, updatedAt := 0, maxAttempts },
    .advance 0 1, .advance 0 1,
    .tick 1 2, .advance 1 2, .advance 1 2, .advance 1 2, .advance 1 3,
    .route 1 (.ok "local"), .advance 1 4, .dispatch 1, .crash,
    .resumeInterrupted 2, .advance 2 5, .advance 2 6, .advance 2 6,
    .tick 3 7, .advance 3 7, .advance 3 7, .advance 3 7, .advance 3 8,
    .route 3 (.ok "local"), .advance 3 9, .dispatch 3]

/-- The job may be dispatched once, and is dispatched twice. -/
theorem dispatchedTwice_exceeds :
    ∃ state, StepFunction.run (step {}) (start (.empty "scheduler_jobs"))
        (dispatchedTwice 1) = some state ∧
      ∃ job ∈ state.table.rows, job.maxAttempts < state.dispatched.count job.id := by
  refine ⟨_, rfl, ?_⟩
  decide +kernel

/-- The job may be dispatched twice. -/
theorem attempts_bounded_of_dispatchedTwice :
    ∃ state, StepFunction.run (step {}) (start (.empty "scheduler_jobs"))
        (dispatchedTwice 2) = some state ∧
      ∀ job ∈ state.table.rows, state.dispatched.count job.id ≤ job.maxAttempts :=
  ⟨_, rfl, @attempts_bounded (Fin 4) _ {} (dispatchedTwice 2) _ rfl (by decide +kernel)⟩

end Scheduling

end Raphael.Scheduler
