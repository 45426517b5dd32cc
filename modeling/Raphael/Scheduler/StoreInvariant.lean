import Raphael.Foundation.SlotTable
import Raphael.Scheduler.AcyclicSubmission

/-! # The scheduler's store

Calls that follow one another: none begins before the last one has returned or raised,
or has ended with the process. The store then keeps its jobs linked, a job is dispatched
only while it may be, and what has ended stays as it ended. -/

namespace Raphael.Scheduler

open Foundation Persistence

/-- A job that has the status has ended. -/
def ScheduledStatus.isFinal : ScheduledStatus → Bool
  | .queued | .running => false
  | .succeeded | .failed | .cancelled => true

def SchedulerPhase.isFinished : SchedulerPhase → Bool
  | .finished _ => true
  | _ => false

/-! ## What the table says -/

/-- Every dependency has succeeded, the deadline has not passed at the moment and the
hours are not quiet. -/
structure Eligible (setup : Setup) (table : SnapshotTable ScheduledJob) (moment : Int)
    (job : ScheduledJob) : Prop where
  dependencies : ∀ dependency ∈ job.dependencies,
    ∃ stored, table.get dependency = some stored ∧ stored.status = .succeeded
  deadline : job.missed moment = false
  hours : setup.inQuietHours moment = false

/-- The job is stored under the status, as it was submitted. -/
def Holds (table : SnapshotTable ScheduledJob) (job : ScheduledJob)
    (status : ScheduledStatus) : Prop :=
  ∃ stored, table.get job.id = some stored ∧ stored.status = status ∧
    SameSubmission stored job

/-- What has ended in the one table has ended so in the other. -/
def KeepsFinal (before after : SnapshotTable ScheduledJob) : Prop :=
  ∀ id stored, before.get id = some stored → stored.status.isFinal = true →
    ∃ later, after.get id = some later ∧ later.status = stored.status

/-- A listed job that is ready to run at the moment. -/
structure Startable (setup : Setup) (table : SnapshotTable ScheduledJob) (moment : Int)
    (job : ScheduledJob) : Prop where
  stored : table.get job.id = some job
  queued : job.status = .queued
  eligible : Eligible setup table moment job

/-- The ready jobs that a tick has not run yet. -/
structure Agenda (setup : Setup) (table : SnapshotTable ScheduledJob) (moment : Int)
    (rest : List ScheduledJob) : Prop where
  distinct : (rest.map ScheduledJob.id).Nodup
  startable : ∀ job ∈ rest, Startable setup table moment job

/-- The tick has the job in hand. -/
structure UnderWay (setup : Setup) (table : SnapshotTable ScheduledJob) (moment : Int)
    (job : ScheduledJob) (rest : List ScheduledJob) : Prop where
  holds : Holds table job .running
  eligible : Eligible setup table moment job
  apart : job.id ∉ rest.map ScheduledJob.id
  agenda : Agenda setup table moment rest

section Tables

variable {setup : Setup} {table before after : SnapshotTable ScheduledJob}
  {moment now : Int} {job other : ScheduledJob} {status : ScheduledStatus}
  {rest : List ScheduledJob}

theorem KeepsFinal.refl (table : SnapshotTable ScheduledJob) : KeepsFinal table table :=
  fun _ stored found _ => ⟨stored, found, rfl⟩

theorem KeepsFinal.trans {first middle last : SnapshotTable ScheduledJob}
    (left : KeepsFinal first middle) (right : KeepsFinal middle last) :
    KeepsFinal first last := by
  intro id stored found isFinal
  rcases left id stored found isFinal with ⟨later, present, same⟩
  rcases right id later present (same ▸ isFinal) with ⟨last, there, still⟩
  exact ⟨last, there, still.trans same⟩

theorem KeepsFinal.create {made : ScheduledJob}
    (written : before.create now job = .ok (after, made)) : KeepsFinal before after := by
  intro id stored found _
  refine ⟨stored, ?_, rfl⟩
  rw [SnapshotTable.get_create written, if_neg, found]
  intro same
  subst same
  have unused := (SnapshotTable.create_eq_ok written).2.2
  rw [found] at unused
  cases unused

/-- A save of a job that is stored as queued or running. -/
theorem KeepsFinal.update (held : Holds table job status) (live : status.isFinal = false) :
    KeepsFinal table (table.update now job).1 := by
  intro id stored found isFinal
  refine ⟨stored, ?_, rfl⟩
  rw [SnapshotTable.get_update, if_neg, found]
  intro same
  subst same
  rcases held with ⟨earlier, present, hasStatus, _⟩
  rw [show Entity.id job = job.id from rfl, present] at found
  cases found
  rw [hasStatus, live] at isFinal
  cases isFinal

theorem SameSubmission.refl (job : ScheduledJob) : SameSubmission job job := ⟨rfl, rfl, rfl⟩

theorem Linked.save (linked : Linked table) (held : Holds table job status) :
    Linked (table.update now job).1 := by
  rcases held with ⟨stored, found, _, same⟩
  exact linked.update found same

/-- The saved job is stored with its status. -/
theorem Holds.saved (job : ScheduledJob) :
    Holds (table.update now job).1 (Entity.touch now job) job.status := by
  refine ⟨Entity.touch now job, ?_, rfl, .refl _⟩
  rw [SnapshotTable.get_update]
  exact if_pos rfl

theorem Eligible.keeps (eligible : Eligible setup before moment job)
    (keeps : KeepsFinal before after) : Eligible setup after moment job where
  dependencies := by
    intro dependency member
    rcases eligible.dependencies dependency member with ⟨stored, found, succeeded⟩
    rcases keeps dependency stored found (by rw [succeeded]; rfl) with ⟨later, present, same⟩
    exact ⟨later, present, same.trans succeeded⟩
  deadline := eligible.deadline
  hours := eligible.hours

theorem Eligible.same (eligible : Eligible setup table moment job)
    (same : SameSubmission job other) : Eligible setup table moment other where
  dependencies := same.1 ▸ eligible.dependencies
  deadline := by
    have deadline := eligible.deadline
    unfold ScheduledJob.missed at deadline ⊢
    rwa [← same.2.2]
  hours := eligible.hours

theorem Startable.update (startable : Startable setup table moment other)
    (keeps : KeepsFinal table (table.update now job).1) (apart : other.id ≠ job.id) :
    Startable setup (table.update now job).1 moment other where
  stored := by
    rw [SnapshotTable.get_update]
    exact (if_neg apart).trans startable.stored
  queued := startable.queued
  eligible := startable.eligible.keeps keeps

theorem Agenda.update (agenda : Agenda setup table moment rest)
    (keeps : KeepsFinal table (table.update now job).1)
    (apart : job.id ∉ rest.map ScheduledJob.id) :
    Agenda setup (table.update now job).1 moment rest where
  distinct := agenda.distinct
  startable := by
    intro other member
    apply (agenda.startable other member).update keeps
    intro same
    exact apart (List.mem_map.mpr ⟨other, member, same⟩)

/-- A save of the job in hand that leaves it running. -/
theorem UnderWay.save (underWay : UnderWay setup table moment job rest)
    (running : job.status = .running) :
    UnderWay setup (table.update now job).1 moment (Entity.touch now job) rest :=
  have keeps : KeepsFinal table (table.update now job).1 := .update underWay.holds rfl
  { holds := running ▸ Holds.saved job
    eligible := (underWay.eligible.keeps keeps).same ⟨rfl, rfl, rfl⟩
    apart := underWay.apart
    agenda := underWay.agenda.update keeps underWay.apart }

/-- The job object changes, but for what it was submitted with. -/
theorem UnderWay.same (underWay : UnderWay setup table moment job rest)
    (same : SameSubmission job other) (id : job.id = other.id) :
    UnderWay setup table moment other rest where
  holds := by
    rcases underWay.holds with ⟨stored, found, running, submitted⟩
    exact ⟨stored, id ▸ found, running, submitted.1.trans same.1,
      submitted.2.1.trans same.2.1, submitted.2.2.trans same.2.2⟩
  eligible := underWay.eligible.same same
  apart := id ▸ underWay.apart
  agenda := underWay.agenda

/-- The first save of a job that was ready. -/
theorem Agenda.start (agenda : Agenda setup table moment (job :: rest)) :
    UnderWay setup (table.update now job.started).1 moment (Entity.touch now job.started)
      rest := by
  have startable := agenda.startable job List.mem_cons_self
  have held : Holds table job.started .queued :=
    ⟨job, startable.stored, startable.queued, rfl, rfl, rfl⟩
  have keeps : KeepsFinal table (table.update now job.started).1 := .update held rfl
  have distinct := List.nodup_cons.mp agenda.distinct
  have later : Agenda setup table moment rest :=
    ⟨distinct.2, fun other member => agenda.startable other (.tail _ member)⟩
  exact ⟨Holds.saved job.started, (startable.eligible.keeps keeps).same ⟨rfl, rfl, rfl⟩,
    distinct.1, later.update keeps distinct.1⟩

/-- Sorting leaves the ready jobs. -/
theorem Agenda.sort {ready : List ScheduledJob} (agenda : Agenda setup table moment ready) :
    Agenda setup table moment (sortReady ready) where
  distinct := by
    have perm := (List.perm_insertionSort (fun left right => left.precedes right) ready).map
      ScheduledJob.id
    exact perm.nodup_iff.mpr agenda.distinct
  startable := by
    intro job member
    exact agenda.startable job ((List.mem_insertionSort _).mp member)

/-- A job that `_ready` finds ready. -/
theorem startable_of_isReady {byId : List ScheduledJob}
    (listed : ∀ other ∈ byId, table.get other.id = some other)
    (stored : table.get job.id = some job) (ready : job.isReady setup moment byId = true) :
    Startable setup table moment job := by
  simp only [ScheduledJob.isReady, Bool.and_eq_true, Bool.not_eq_true', beq_iff_eq] at ready
  rcases ready with ⟨⟨⟨queued, deadline⟩, met⟩, hours⟩
  refine ⟨stored, queued, ?_, deadline, hours⟩
  intro dependency member
  have found := List.all_eq_true.mp met dependency member
  cases known : byId.find? (·.id == dependency) with
  | none => simp [known] at found
  | some other =>
      simp only [known, beq_iff_eq] at found
      have same : other.id = dependency := by simpa using List.find?_some known
      exact ⟨other, same ▸ listed other (List.mem_of_find?_eq_some known), found⟩

end Tables

namespace Scheduling

variable {Call : Type u}

/-! ## Runs of one call at a time -/

/-- No call is under way. -/
def Idle (state : Scheduling Call) : Prop :=
  ∀ call phase, state.phase call = some phase → phase.isFinished = true

/-- A call begins when none is under way, and jobs are submitted queued and under ids
that are not in use. -/
def Sequential (state : Scheduling Call) : SchedulerAction Call → Prop
  | .submit _ job =>
      state.Idle ∧ job.status = .queued ∧ state.table.get job.id = none
  | .cancel _ _ | .tick _ _ | .resumeInterrupted _ => state.Idle
  | _ => True

instance [Fintype Call] (state : Scheduling Call) : Decidable state.Idle :=
  decidable_of_iff (∀ call, (state.phase call).all SchedulerPhase.isFinished = true)
    (forall_congr' fun call => by cases state.phase call <;> simp)

instance [Fintype Call] (state : Scheduling Call) (action : SchedulerAction Call) :
    Decidable (state.Sequential action) :=
  match action with
  | .submit _ job => inferInstanceAs (Decidable (state.Idle ∧ job.status = .queued ∧
      state.table.get job.id = none))
  | .cancel _ _ | .tick _ _ | .resumeInterrupted _ => inferInstanceAs (Decidable state.Idle)
  | .advance _ _ | .route _ _ | .dispatch _ | .dispatched _ _ | .raise _ _ | .crash =>
      isTrue trivial

/-- The tick that began last, with its moment. -/
def latestTick (actions : List (SchedulerAction Call)) : Option (Call × Int) :=
  actions.foldl
    (fun latest action =>
      match action with
      | .tick call moment => some (call, moment)
      | _ => latest)
    none

/-- The call is about to dispatch a job for the latest tick: the job is stored as
running, and is eligible at the moment of the tick. -/
def Dispatches (setup : Setup) (state : Scheduling Call) (latest : Option (Call × Int))
    (call : Call) : Prop :=
  ∃ job rest ran moment, state.phase call = some (.dispatching job rest ran) ∧
    latest = some (call, moment) ∧ Holds state.table job .running ∧
    Eligible setup state.table moment job

/-- Every dependency of a stored job is stored. -/
def DependenciesStored (state : Scheduling Call) : Prop :=
  ∀ job ∈ state.table.rows, ∀ dependency ∈ job.dependencies,
    ∃ stored ∈ state.table.rows, stored.id = dependency

/-- No stored job depends on itself, at any distance. -/
def AcyclicDependencies (state : Scheduling Call) : Prop :=
  ∀ id, ¬ Relation.TransGen (DependsOn state.table) id id

/-- No two stored jobs have one idempotency key. -/
def KeysDistinct (state : Scheduling Call) : Prop :=
  ∀ left ∈ state.table.rows, ∀ right ∈ state.table.rows, left.idempotencyKey ≠ "" →
    left.idempotencyKey = right.idempotencyKey → left.id = right.id

/-- Where a `submit` under way reaches the cycle check, the check passes. -/
def ChecksPass (state : Scheduling Call) : Prop :=
  ∀ call job, state.phase call = some (.submitting job) →
    (∀ dependency ∈ job.dependencies, ∃ stored ∈ state.table.rows, stored.id = dependency) →
    assertAcyclic state.table.list job = .ok ()

/-! ## The invariant -/

/-- What the call under way relies on. -/
def PhaseOrdered (setup : Setup) (latest : Option (Call × Int))
    (table : SnapshotTable ScheduledJob) (call : Call) : SchedulerPhase → Prop
  | .submitting job => job.id ∉ created table
  | .creating job => Admissible table job
  | .cancelling job => Holds table job .queued
  | .listing moment => latest = some (call, moment)
  | .readying moment byId rest ready =>
      latest = some (call, moment) ∧ ((ready ++ rest).map ScheduledJob.id).Nodup ∧
        (∀ job ∈ byId, table.get job.id = some job) ∧
        (∀ job ∈ rest, table.get job.id = some job) ∧
        ∀ job ∈ ready, Startable setup table moment job
  | .running rest _ => ∃ moment, latest = some (call, moment) ∧ Agenda setup table moment rest
  | .routing job rest _ | .routed job rest _ | .dispatching job rest _ =>
      job.status = .running ∧
        ∃ moment, latest = some (call, moment) ∧ UnderWay setup table moment job rest
  | .awaiting job rest _ | .requeueing job rest _ | .finishing job rest _ =>
      ∃ moment, latest = some (call, moment) ∧ UnderWay setup table moment job rest
  | .resetting rest _ =>
      (rest.map ScheduledJob.id).Nodup ∧ ∀ job ∈ rest, table.get job.id = some job
  | .requiring _ | .resuming | .finished _ => True

/-- The other calls have returned or raised. -/
def Alone (state : Scheduling Call) (call : Call) : Prop :=
  ∀ other phase, other ≠ call → state.phase other = some phase → phase.isFinished = true

/-- The store is linked, and one call is under way at most. -/
structure Sequenced (setup : Setup) (latest : Option (Call × Int)) (state : Scheduling Call) :
    Prop where
  linked : Linked state.table
  alone : ∀ call phase, state.phase call = some phase → phase.isFinished = false →
    state.Alone call
  phases : ∀ call phase, state.phase call = some phase →
    PhaseOrdered setup latest state.table call phase

theorem sequenced_start (setup : Setup) :
    (start (.empty "scheduler_jobs") : Scheduling Call).Sequenced setup none where
  linked := linked_empty _
  alone := by simp [start]
  phases := by simp [start]

variable [DecidableEq Call] {setup : Setup} {latest : Option (Call × Int)}
  {before after : Scheduling Call} {call : Call} {old next : SchedulerPhase}
  {job : ScheduledJob} {rest ran : List ScheduledJob} {moment now : Int}

/-- A step of the only call under way. -/
private theorem sequenced_of_alone (linked : Linked after.table) (alone : before.Alone call)
    (moved : after.phase = Function.update before.phase call (some next))
    (ordered : PhaseOrdered setup latest after.table call next) :
    after.Sequenced setup latest where
  linked := linked
  alone := by
    intro first phase current unfinished other left differs found
    rw [moved] at current found
    rcases update_eq_some current with ⟨rfl, _⟩ | ⟨apart, present⟩
    · rcases update_eq_some found with ⟨same, _⟩ | ⟨_, there⟩
      · exact absurd same differs
      · exact alone other left differs there
    · rw [alone first phase apart present] at unfinished
      cases unfinished
  phases := by
    intro other phase found
    rw [moved] at found
    rcases update_eq_some found with ⟨rfl, same⟩ | ⟨differs, present⟩
    · exact Option.some.inj same ▸ ordered
    · have finished := alone other phase differs present
      cases phase with
      | finished => trivial
      | _ => cases finished

/-- What a step of a sequential run keeps. -/
def Proceeds (setup : Setup) (latest : Option (Call × Int)) (before after : Scheduling Call) :
    Prop :=
  after.Sequenced setup latest ∧ KeepsFinal before.table after.table

/-- A step that leaves the table. -/
private theorem proceeds_of_table {latest' : Option (Call × Int)} (linked : Linked before.table)
    (alone : before.Alone call)
    (moved : after.phase = Function.update before.phase call (some next))
    (table : after.table = before.table)
    (ordered : PhaseOrdered setup latest' before.table call next) :
    Proceeds setup latest' before after := by
  rw [← table] at linked ordered
  exact ⟨sequenced_of_alone linked alone moved ordered, by rw [table]; exact .refl _⟩

private theorem proceeds_moveTo (linked : Linked before.table) (alone : before.Alone call)
    (ordered : PhaseOrdered setup latest before.table call next) :
    Proceeds setup latest before (before.moveTo call next) :=
  proceeds_of_table linked alone rfl rfl ordered

/-- A step that saves a queued or running job. -/
private theorem proceeds_save {phase : ScheduledJob → SchedulerPhase} {status : ScheduledStatus}
    (linked : Linked before.table) (alone : before.Alone call)
    (held : Holds before.table job status) (live : status.isFinal = false)
    (ordered : PhaseOrdered setup latest (before.table.update now job).1 call
      (phase (Entity.touch now job))) :
    Proceeds setup latest before (before.save call now job phase) :=
  ⟨sequenced_of_alone (linked.save held) alone (save_phase ..) ordered, .update held live⟩

/-! ### Submissions -/

omit [DecidableEq Call] in
private theorem known_of_checkDependencies {table : SnapshotTable ScheduledJob}
    (checked : checkDependencies table.list job = .ok ()) :
    ∀ dependency ∈ job.dependencies, dependency ∈ created table := by
  intro dependency member
  unfold checkDependencies at checked
  dsimp only at checked
  split at checked
  · next none =>
      rw [List.isEmpty_iff, List.filter_eq_nil_iff] at none
      have known := none dependency member
      rw [Bool.not_eq_true, Bool.not_eq_false', List.any_eq_true] at known
      rcases known with ⟨stored, listed, same⟩
      exact List.mem_map.mpr ⟨stored, SnapshotTable.mem_list.mp listed, beq_iff_eq.mp same⟩
  · cases checked

omit [DecidableEq Call] in
private theorem unkeyed_of_sameKey {table : SnapshotTable ScheduledJob}
    (unused : sameKey table.list job = none) : ∀ id found, table.get id = some found →
      job.idempotencyKey ≠ "" → found.idempotencyKey ≠ job.idempotencyKey := by
  intro id found stored keyed
  unfold sameKey at unused
  rw [if_neg keyed, List.find?_eq_none] at unused
  have listed := SnapshotTable.mem_list.mpr (SnapshotTable.get_eq_some_iff.mp stored).1
  simpa using unused found listed

private theorem Sequenced.listForSubmit (sequenced : before.Sequenced setup latest)
    (current : before.phase call = some (.submitting job)) :
    Proceeds setup latest before (before.listForSubmit call job) := by
  have alone := sequenced.alone call _ current rfl
  unfold Scheduling.listForSubmit
  split
  · exact proceeds_of_table sequenced.linked alone rfl rfl trivial
  · next unused =>
      split
      · exact proceeds_of_table sequenced.linked alone rfl rfl trivial
      · next checked =>
          exact proceeds_of_table sequenced.linked alone rfl rfl
            ⟨sequenced.phases call _ current, known_of_checkDependencies checked,
              unkeyed_of_sameKey unused⟩

private theorem Sequenced.create {table : SnapshotTable ScheduledJob} {made : ScheduledJob}
    (sequenced : before.Sequenced setup latest)
    (current : before.phase call = some (.creating job))
    (written : before.table.create now job = .ok (table, made)) :
    Proceeds setup latest before
      (leaveSubmit { before with table } call (.ok [made])) := by
  have alone := sequenced.alone call _ current rfl
  have linked := sequenced.linked.create (sequenced.phases call _ current) written
  exact ⟨sequenced_of_alone linked alone rfl trivial, .create written⟩

/-! ### Cancellations -/

private theorem Sequenced.require {jobId : String} (sequenced : before.Sequenced setup latest)
    (current : before.phase call = some (.requiring jobId))
    (required : before.requireQueued jobId = .ok job) :
    Proceeds setup latest before (before.moveTo call (.cancelling job)) := by
  apply proceeds_moveTo sequenced.linked (sequenced.alone call _ current rfl)
  unfold requireQueued at required
  split at required
  · cases required
  · next stored found =>
      split at required
      · next queued =>
          cases required
          have same : stored.id = jobId := SnapshotTable.id_of_get found
          exact ⟨stored, same ▸ found, beq_iff_eq.mp queued, rfl, rfl, rfl⟩
      · cases required

/-! ### Ticks -/

omit [DecidableEq Call] in
private theorem get_of_listed {table : SnapshotTable ScheduledJob} :
    ∀ job ∈ table.list, table.get job.id = some job :=
  fun _ listed => SnapshotTable.get_eq_some_iff.mpr ⟨SnapshotTable.mem_list.mp listed, rfl⟩

omit [DecidableEq Call] in
private theorem nodup_list (table : SnapshotTable ScheduledJob) :
    (table.list.map ScheduledJob.id).Nodup :=
  ((SnapshotTable.list_perm table).map ScheduledJob.id).nodup_iff.mpr table.distinct

/-- The deadline of a job that is being looked at has passed. -/
private theorem Sequenced.miss {byId ready : List ScheduledJob}
    (sequenced : before.Sequenced setup latest)
    (current : before.phase call = some (.readying moment byId (job :: rest) ready))
    (fails : job.fails moment = true) :
    Proceeds setup latest before
      (before.save call now (job.withStatus .failed "deadline missed before execution")
        fun job => .readying moment (mutate byId job) rest ready) := by
  rcases sequenced.phases call _ current with ⟨tick, distinct, known, listed, startable⟩
  have stored := listed job List.mem_cons_self
  have queued : job.status = .queued := by
    unfold ScheduledJob.fails at fails
    rw [Bool.and_eq_true, beq_iff_eq] at fails
    exact fails.1
  have held : Holds before.table (job.withStatus .failed "deadline missed before execution")
      .queued := ⟨job, stored, queued, rfl, rfl, rfl⟩
  have keeps : KeepsFinal before.table (before.table.update now
      (job.withStatus .failed "deadline missed before execution")).1 := .update held rfl
  rw [List.map_append, List.map_cons, List.nodup_middle, List.nodup_cons, ← List.map_append]
    at distinct
  have apart : ∀ other ∈ ready ++ rest, other.id ≠ job.id :=
    fun other member same => distinct.1 (List.mem_map.mpr ⟨other, member, same⟩)
  apply proceeds_save sequenced.linked (sequenced.alone call _ current rfl) held rfl
  refine ⟨tick, distinct.2, ?_, ?_, ?_⟩
  · intro other member
    rcases List.mem_map.mp member with ⟨earlier, present, rfl⟩
    rw [SnapshotTable.get_update]
    split
    · exact if_pos rfl
    · next differs =>
        exact (if_neg fun same => differs (beq_iff_eq.mpr same)).trans (known earlier present)
  · intro other member
    rw [SnapshotTable.get_update]
    exact (if_neg (apart other (List.mem_append_right _ member))).trans
      (listed other (.tail _ member))
  · intro other member
    exact (startable other member).update keeps (apart other (List.mem_append_left _ member))

private theorem Sequenced.readyOne {byId ready : List ScheduledJob}
    (sequenced : before.Sequenced setup latest)
    (current : before.phase call = some (.readying moment byId (job :: rest) ready)) :
    Proceeds setup latest before
      (before.readyOne setup call now moment byId rest ready job) := by
  have alone := sequenced.alone call _ current rfl
  rcases sequenced.phases call _ current with ⟨tick, distinct, known, listed, startable⟩
  have later : ∀ other ∈ rest, before.table.get other.id = some other :=
    fun other member => listed other (.tail _ member)
  unfold Scheduling.readyOne
  split
  · next fails => exact sequenced.miss current fails
  · split
    · next isReady =>
        apply proceeds_moveTo sequenced.linked alone
        refine ⟨tick, by rwa [List.append_assoc], known, later, ?_⟩
        intro other member
        rcases List.mem_append.mp member with earlier | here
        · exact startable other earlier
        · rw [List.mem_singleton.mp here]
          exact startable_of_isReady known (listed job List.mem_cons_self) isReady
    · apply proceeds_moveTo sequenced.linked alone
      have fewer : ((ready ++ rest).map ScheduledJob.id).Sublist
          ((ready ++ job :: rest).map ScheduledJob.id) :=
        ((List.sublist_cons_self job rest).append_left ready).map ScheduledJob.id
      exact ⟨tick, distinct.sublist fewer, known, later, startable⟩

private theorem Sequenced.sort {byId ready : List ScheduledJob}
    (sequenced : before.Sequenced setup latest)
    (current : before.phase call = some (.readying moment byId [] ready)) :
    Proceeds setup latest before (before.moveTo call (.running (sortReady ready) [])) := by
  rcases sequenced.phases call _ current with ⟨tick, distinct, _, _, startable⟩
  rw [List.append_nil] at distinct
  apply proceeds_moveTo sequenced.linked (sequenced.alone call _ current rfl)
  exact ⟨moment, tick, Agenda.sort ⟨distinct, startable⟩⟩

/-- The first save of a job. -/
private theorem Sequenced.startJob (sequenced : before.Sequenced setup latest)
    (current : before.phase call = some (.running (job :: rest) ran)) :
    Proceeds setup latest before
      (before.save call now job.started (afterStart setup rest ran)) := by
  rcases sequenced.phases call _ current with ⟨moment, tick, agenda⟩
  have startable := agenda.startable job List.mem_cons_self
  have held : Holds before.table job.started .queued :=
    ⟨job, startable.stored, startable.queued, rfl, rfl, rfl⟩
  apply proceeds_save sequenced.linked (sequenced.alone call _ current rfl) held rfl
  have underWay : UnderWay setup (before.table.update now job.started).1 moment
      (Entity.touch now job.started) rest := agenda.start
  unfold afterStart
  split
  · exact ⟨rfl, moment, tick, underWay⟩
  · exact ⟨moment, tick, underWay.same ⟨rfl, rfl, rfl⟩ rfl⟩

/-- A save of the job in hand by which the tick lets go of it. -/
private theorem Sequenced.saveDone (sequenced : before.Sequenced setup latest)
    (alone : before.Alone call) (tick : latest = some (call, moment))
    (underWay : UnderWay setup before.table moment job rest) :
    Proceeds setup latest before
      (before.save call now job fun job => .running rest (ran ++ [job])) := by
  apply proceeds_save sequenced.linked alone underWay.holds rfl
  have keeps : KeepsFinal before.table (before.table.update now job).1 :=
    .update underWay.holds rfl
  exact ⟨moment, tick, underWay.agenda.update keeps underWay.apart⟩

/-! ### Recoveries -/

private theorem Sequenced.reset {reset : List ScheduledJob}
    (sequenced : before.Sequenced setup latest)
    (current : before.phase call = some (.resetting (job :: rest) reset))
    (running : job.status = .running) :
    Proceeds setup latest before
      (before.save call now { job with status := .queued }
        fun job => .resetting rest (reset ++ [job])) := by
  rcases sequenced.phases call _ current with ⟨distinct, listed⟩
  have held : Holds before.table { job with status := .queued } .running :=
    ⟨job, listed job List.mem_cons_self, running, rfl, rfl, rfl⟩
  have parts := List.nodup_cons.mp distinct
  apply proceeds_save sequenced.linked (sequenced.alone call _ current rfl) held rfl
  refine ⟨parts.2, ?_⟩
  intro other member
  have apart : other.id ≠ job.id :=
    fun same => parts.1 (List.mem_map.mpr ⟨other, member, same⟩)
  rw [SnapshotTable.get_update]
  exact (if_neg apart).trans (listed other (.tail _ member))

/-! ### All steps -/

private theorem Sequenced.advance {phase : SchedulerPhase}
    (sequenced : before.Sequenced setup latest) (current : before.phase call = some phase)
    (advanced : before.advance setup call now phase = some after) :
    Proceeds setup latest before after := by
  have linked := sequenced.linked
  have ordered := sequenced.phases call phase current
  cases phase with
  | submitting job =>
      simp only [Scheduling.advance] at advanced
      split at advanced <;> cases advanced
      exact sequenced.listForSubmit current
  | creating job =>
      have alone := sequenced.alone call _ current rfl
      simp only [Scheduling.advance] at advanced
      split at advanced
      · cases advanced
        exact proceeds_of_table linked alone rfl rfl trivial
      · next table made written =>
          cases advanced
          exact sequenced.create current written
  | requiring jobId =>
      have alone := sequenced.alone call _ current rfl
      simp only [Scheduling.advance] at advanced
      split at advanced
      · cases advanced
        exact proceeds_moveTo linked alone trivial
      · next job required =>
          cases advanced
          exact sequenced.require current required
  | cancelling job =>
      have alone := sequenced.alone call _ current rfl
      cases advanced
      exact ⟨sequenced_of_alone (linked.save ordered) alone (save_phase ..) trivial,
        .update ordered rfl⟩
  | listing moment =>
      have alone := sequenced.alone call _ current rfl
      cases advanced
      apply proceeds_moveTo linked alone
      exact ⟨ordered, nodup_list _, get_of_listed, get_of_listed, by simp⟩
  | readying moment byId rest ready =>
      cases rest with
      | nil =>
          cases advanced
          exact sequenced.sort current
      | cons job rest =>
          cases advanced
          exact sequenced.readyOne current
  | running rest ran =>
      cases rest with
      | nil =>
          have alone := sequenced.alone call _ current rfl
          cases advanced
          exact proceeds_moveTo linked alone trivial
      | cons job rest =>
          cases advanced
          exact sequenced.startJob current
  | routed job rest ran =>
      have alone := sequenced.alone call _ current rfl
      rcases ordered with ⟨running, moment, tick, underWay⟩
      cases advanced
      exact proceeds_save linked alone underWay.holds rfl
        ⟨running, moment, tick, underWay.save running⟩
  | requeueing job rest ran =>
      have alone := sequenced.alone call _ current rfl
      rcases ordered with ⟨moment, tick, underWay⟩
      cases advanced
      exact sequenced.saveDone alone tick underWay
  | finishing job rest ran =>
      have alone := sequenced.alone call _ current rfl
      rcases ordered with ⟨moment, tick, underWay⟩
      cases advanced
      exact sequenced.saveDone alone tick underWay
  | resuming =>
      have alone := sequenced.alone call _ current rfl
      cases advanced
      exact proceeds_moveTo linked alone ⟨nodup_list _, get_of_listed⟩
  | resetting rest reset =>
      cases rest with
      | nil =>
          have alone := sequenced.alone call _ current rfl
          cases advanced
          exact proceeds_moveTo linked alone trivial
      | cons job rest =>
          simp only [Scheduling.advance] at advanced
          split at advanced
          · next running =>
              cases advanced
              exact sequenced.reset current (beq_iff_eq.mp running)
          · have alone := sequenced.alone call _ current rfl
            cases advanced
            apply proceeds_moveTo linked alone
            exact ⟨(List.nodup_cons.mp ordered.1).2,
              fun other member => ordered.2 other (.tail _ member)⟩
  | routing | dispatching | awaiting | finished => cases advanced

/-- A call that begins while none is under way. -/
private theorem Sequenced.begin {latest' : Option (Call × Int)}
    (sequenced : before.Sequenced setup latest) (idle : before.Idle)
    (begun : before.begin call next = some after)
    (ordered : PhaseOrdered setup latest' before.table call next) :
    Proceeds setup latest' before after := by
  unfold Scheduling.begin at begun
  split at begun
  · cases begun
    exact proceeds_moveTo sequenced.linked (fun other phase _ => idle other phase) ordered
  · cases begun

private theorem Sequenced.afterDispatch {answer : Except String String}
    (sequenced : before.Sequenced setup latest)
    (current : before.phase call = some (.awaiting job rest ran)) :
    Proceeds setup latest before
      (before.moveTo call (Scheduling.afterDispatch job rest ran answer)) := by
  rcases sequenced.phases call _ current with ⟨moment, tick, underWay⟩
  have keeps : ∀ status summary,
      UnderWay setup before.table moment (job.withStatus status summary) rest :=
    fun _ _ => underWay.same ⟨rfl, rfl, rfl⟩ rfl
  apply proceeds_moveTo sequenced.linked (sequenced.alone call _ current rfl)
  cases answer with
  | ok summary => exact ⟨moment, tick, keeps _ _⟩
  | error raised =>
      unfold Scheduling.afterDispatch
      dsimp only
      split <;> exact ⟨moment, tick, keeps _ _⟩

omit [DecidableEq Call] in
private theorem latestTick_concat (past : List (SchedulerAction Call))
    {action : SchedulerAction Call} (other : ∀ call moment, action ≠ .tick call moment) :
    latestTick (past ++ [action]) = latestTick past := by
  rw [latestTick, List.foldl_append]
  cases action with
  | tick call moment => exact absurd rfl (other call moment)
  | _ => rfl

/-- One step keeps the invariant and what has ended. -/
theorem Sequenced.step {action : SchedulerAction Call} {past : List (SchedulerAction Call)}
    (sequenced : before.Sequenced setup (latestTick past))
    (sequential : before.Sequential action)
    (stepped : Scheduling.step setup before action = some after) :
    Proceeds setup (latestTick (past ++ [action])) before after := by
  cases action with
  | submit call job =>
      rw [latestTick_concat past (by simp)]
      simp only [Scheduling.step] at stepped
      split at stepped
      · exact sequenced.begin sequential.1 stepped trivial
      · apply sequenced.begin sequential.1 stepped
        intro member
        rcases mem_created.mp member with ⟨held, found⟩
        rw [sequential.2.2] at found
        cases found
  | cancel call jobId =>
      rw [latestTick_concat past (by simp)]
      exact sequenced.begin sequential stepped trivial
  | tick call moment =>
      apply sequenced.begin sequential stepped
      rw [PhaseOrdered, latestTick, List.foldl_append]
      rfl
  | resumeInterrupted call =>
      rw [latestTick_concat past (by simp)]
      exact sequenced.begin sequential stepped trivial
  | advance call now =>
      rw [latestTick_concat past (by simp)]
      simp only [Scheduling.step] at stepped
      split at stepped
      · cases stepped
      · next phase current => exact sequenced.advance current stepped
  | route call answer =>
      rw [latestTick_concat past (by simp)]
      simp only [Scheduling.step] at stepped
      split at stepped
      · next job rest ran provider current =>
          rcases sequenced.phases call _ current with ⟨running, moment, tick, underWay⟩
          cases stepped
          exact proceeds_moveTo sequenced.linked (sequenced.alone call _ current rfl)
            ⟨running, moment, tick, underWay.same ⟨rfl, rfl, rfl⟩ rfl⟩
      · next job rest ran raised current =>
          rcases sequenced.phases call _ current with ⟨_, moment, tick, underWay⟩
          cases stepped
          exact proceeds_moveTo sequenced.linked (sequenced.alone call _ current rfl)
            ⟨moment, tick, underWay.same ⟨rfl, rfl, rfl⟩ rfl⟩
      · cases stepped
  | dispatch call =>
      rw [latestTick_concat past (by simp)]
      simp only [Scheduling.step] at stepped
      split at stepped
      · next job rest ran current =>
          cases stepped
          exact proceeds_of_table sequenced.linked (sequenced.alone call _ current rfl) rfl rfl
            (sequenced.phases call _ current).2
      · cases stepped
  | dispatched call answer =>
      rw [latestTick_concat past (by simp)]
      simp only [Scheduling.step] at stepped
      split at stepped
      · next job rest ran current =>
          cases stepped
          exact sequenced.afterDispatch current
      · cases stepped
  | raise call error =>
      rw [latestTick_concat past (by simp)]
      simp only [Scheduling.step] at stepped
      split at stepped
      · cases stepped
      · cases stepped
      · next current =>
          cases stepped
          exact proceeds_of_table sequenced.linked (sequenced.alone call _ current rfl) rfl rfl
            trivial
      · next phase notFinished notCreating current =>
          have unfinished : phase.isFinished = false := by
            cases phase with
            | finished result => exact (notFinished result rfl).elim
            | _ => rfl
          cases stepped
          exact proceeds_moveTo sequenced.linked (sequenced.alone call _ current unfinished)
            trivial
  | crash =>
      rw [latestTick_concat past (by simp)]
      cases stepped
      exact ⟨⟨sequenced.linked, by simp, by simp⟩, .refl _⟩

/-! ## Every run -/

omit [DecidableEq Call] in
private theorem stored_of_get {table : SnapshotTable ScheduledJob} {jobId : String}
    (known : jobId ∈ created table) : ∃ stored ∈ table.rows, stored.id = jobId :=
  List.mem_map.mp known

omit [DecidableEq Call] in
theorem Sequenced.dependenciesStored (sequenced : before.Sequenced setup latest) :
    before.DependenciesStored := by
  intro job present dependency member
  have found : before.table.get job.id = some job :=
    SnapshotTable.get_eq_some_iff.mpr ⟨present, rfl⟩
  exact stored_of_get (sequenced.linked.order.target_mem ⟨job, found, member⟩)

omit [DecidableEq Call] in
theorem Sequenced.keysDistinct (sequenced : before.Sequenced setup latest) :
    before.KeysDistinct := by
  intro left inLeft right inRight keyed same
  apply sequenced.linked.keys left.id right.id left right _ _ keyed same
  · exact SnapshotTable.get_eq_some_iff.mpr ⟨inLeft, rfl⟩
  · exact SnapshotTable.get_eq_some_iff.mpr ⟨inRight, rfl⟩

omit [DecidableEq Call] in
theorem Sequenced.checksPass (sequenced : before.Sequenced setup latest) :
    before.ChecksPass := by
  intro call job current known
  apply assertAcyclic_ok sequenced.linked (sequenced.phases call _ current)
  intro dependency member
  exact List.mem_map.mpr (known dependency member)

omit [DecidableEq Call] in
theorem Sequenced.dispatches (sequenced : before.Sequenced setup latest)
    (current : before.phase call = some (.dispatching job rest ran)) :
    before.Dispatches setup latest call := by
  rcases sequenced.phases call _ current with ⟨_, moment, tick, underWay⟩
  exact ⟨job, rest, ran, moment, current, tick, underWay.holds, underWay.eligible⟩

/-- A sequential run from the empty store ends in a state with the invariant. -/
private theorem sequenced_of_run {actions : List (SchedulerAction Call)}
    (sequential : StepFunction.Meets (step setup) Sequential
      (start (.empty "scheduler_jobs")) actions)
    (reached : StepFunction.run (step setup) (start (.empty "scheduler_jobs")) actions =
      some after) : after.Sequenced setup (latestTick actions) :=
  StepFunction.history_of_meets
    (fun past (state : Scheduling Call) => state.Sequenced setup (latestTick past))
    (fun _ _ _ _ sequenced sequential stepped =>
      (Sequenced.step sequenced sequential stepped).1)
    [] (sequenced_start setup) sequential reached

/-- In every sequential run from the empty store: the stored jobs depend on stored jobs,
without a cycle, and have distinct keys; the cycle check passes wherever a submission
reaches it; every dispatch is one of an eligible job; and a job that has ended keeps its
status. -/
theorem store_keeps {actions : List (SchedulerAction Call)} {state : Scheduling Call}
    (sequential : StepFunction.Meets (step setup) Sequential
      (start (.empty "scheduler_jobs")) actions)
    (reached : StepFunction.run (step setup) (start (.empty "scheduler_jobs")) actions =
      some state) :
    state.DependenciesStored ∧ state.AcyclicDependencies ∧ state.KeysDistinct ∧
      state.ChecksPass ∧
      (∀ earlier call later, actions = earlier ++ .dispatch call :: later →
        ∃ middle, StepFunction.run (step setup) (start (.empty "scheduler_jobs")) earlier =
          some middle ∧ middle.Dispatches setup (latestTick earlier) call) ∧
      ∀ earlier later middle, actions = earlier ++ later →
        StepFunction.run (step setup) (start (.empty "scheduler_jobs")) earlier =
          some middle → KeepsFinal middle.table state.table := by
  have sequenced := sequenced_of_run sequential reached
  refine ⟨sequenced.dependenciesStored, sequenced.linked.order.acyclic,
    sequenced.keysDistinct, sequenced.checksPass, ?_, ?_⟩
  · intro earlier call later split
    subst split
    rcases StepFunction.run_append_eq_some.mp reached with ⟨middle, front, back⟩
    rcases StepFunction.run_cons_eq_some.mp back with ⟨next, stepped, _⟩
    have before := sequenced_of_run (StepFunction.meets_append.mp sequential).1 front
    simp only [step] at stepped
    split at stepped
    · next job rest ran current => exact ⟨middle, front, before.dispatches current⟩
    · cases stepped
  · intro earlier later middle split front
    subst split
    rcases StepFunction.run_append_eq_some.mp reached with ⟨other, same, back⟩
    rw [front] at same
    cases same
    rcases StepFunction.meets_append.mp sequential with ⟨meets, rest⟩
    have kept : ∀ (before : Scheduling Call) (action : SchedulerAction Call)
        (after : Scheduling Call),
        (∃ past, before.Sequenced setup (latestTick past)) → before.Sequential action →
        step setup before action = some after →
        (∃ past, after.Sequenced setup (latestTick past)) ∧
          KeepsFinal before.table after.table := by
      intro before action after reached sequential stepped
      rcases reached with ⟨past, sequenced⟩
      have proceeds := Sequenced.step sequenced sequential stepped
      exact ⟨⟨_, proceeds.1⟩, proceeds.2⟩
    exact @StepFunction.related_of_meets _ _ _ Sequential
      (fun state : Scheduling Call => ∃ past : List (SchedulerAction Call),
        state.Sequenced setup (latestTick past))
      (fun first last => KeepsFinal first.table last.table)
      (fun state => KeepsFinal.refl state.table)
      (fun _ _ _ => KeepsFinal.trans)
      kept _ _ _ ⟨earlier, sequenced_of_run meets front⟩ (rest middle front) back

/-- A job and one that depends on it are submitted, and two ticks run them. -/
def twoTicks : List (SchedulerAction (Fin 5)) :=
  [.submit 0 { id := "first", createdAt := 0, updatedAt := 0, idempotencyKey := "one" },
    .advance 0 1, .advance 0 1,
    .submit 1 { id := "second", createdAt := 0, updatedAt := 0, dependencies := ["first"] },
    .advance 1 2, .advance 1 2,
    .tick 2 3, .advance 2 3, .advance 2 3, .advance 2 3, .advance 2 3, .advance 2 4,
    .route 2 (.ok "local"), .advance 2 5, .dispatch 2, .dispatched 2 (.ok "done"),
    .advance 2 6, .advance 2 6,
    .tick 3 7, .advance 3 7, .advance 3 7, .advance 3 7, .advance 3 7, .advance 3 8,
    .route 3 (.ok "local"), .advance 3 9, .dispatch 3]

theorem store_keeps_twoTicks :
    ∃ state, StepFunction.run (step {}) (start (.empty "scheduler_jobs")) twoTicks =
        some state ∧ state.dispatched = ["first", "second"] ∧
      state.DependenciesStored ∧ state.AcyclicDependencies ∧ state.KeysDistinct ∧
        state.ChecksPass ∧
        (∀ earlier call later, twoTicks = earlier ++ .dispatch call :: later →
          ∃ middle, StepFunction.run (step {}) (start (.empty "scheduler_jobs")) earlier =
            some middle ∧ middle.Dispatches {} (latestTick earlier) call) ∧
        ∀ earlier later middle, twoTicks = earlier ++ later →
          StepFunction.run (step {}) (start (.empty "scheduler_jobs")) earlier =
            some middle → KeepsFinal middle.table state.table :=
  ⟨_, rfl, by decide +kernel, @store_keeps (Fin 5) _ {} twoTicks _ (by decide +kernel) rfl⟩

end Scheduling

end Raphael.Scheduler
