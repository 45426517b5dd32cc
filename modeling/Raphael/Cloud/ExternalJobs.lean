import Raphael.Cloud.DatasetPolicy
import Raphael.Foundation.FallibleFold
import Raphael.Foundation.StepSystem

/-! # Jobs of an external provider

The calls that submit, poll and cancel a job, what the transport answers, and when the job
keeps to its lifecycle. -/

namespace Raphael.Cloud

open Core Foundation

inductive JobStatus
  | queued
  | running
  | succeeded
  | failed
  | cancelled
  | timedOut
  deriving DecidableEq, Repr

namespace JobStatus

def terminal : JobStatus → Bool
  | .queued | .running => false
  | .succeeded | .failed | .cancelled | .timedOut => true

/-- `_ALLOWED_MOVES`. -/
def allowedMoves : JobStatus → List JobStatus
  | .queued => [.running, .failed, .cancelled]
  | .running => [.succeeded, .failed, .cancelled, .timedOut]
  | .succeeded | .failed | .cancelled | .timedOut => []

/-- The status that a reported state is mapped to. -/
def ofState (state : String) : JobStatus :=
  if state = "CREATED" ∨ state = "QUEUED" then .queued
  else if state = "RUNNING" then .running
  else if state = "COMPLETED" then .succeeded
  else if state = "FAILED" then .failed
  else if state = "CANCELLED" then .cancelled
  else if state = "TIMED_OUT" then .timedOut
  else .failed

end JobStatus

structure ComputeJob where
  id : String
  provider : String := ""
  taskId : String := ""
  status : JobStatus := .queued
  startedAt : Option Int := none
  completedAt : Option Int := none
  resultReference : String := ""
  error : String := ""
  updatedAt : Int := 0
  deriving DecidableEq

inductive CloudStatus
  | disconnected
  | connecting
  | connected
  | degraded
  | error
  deriving DecidableEq

/-- What the transport raises: an error of the cloud, or any other. -/
inductive TransportFailure
  | cloud (message : String)
  | other (message : String)
  deriving DecidableEq

inductive JobError
  | transport (failure : TransportFailure)
  | unavailable (message : String)
  | dataset (error : DatasetError)
  | conversion (error : ConversionError)
  | validation (message : String)
  deriving DecidableEq

/-- A dataset, with what `int` makes of its size. -/
structure Dataset where
  name : String
  kind : String
  sizeBytes : Except ConversionError Int
  payload : Option Payload

structure ExternalProvider where
  name : String
  status : CloudStatus := .connected
  datasets : DatasetPolicy := {}

/-- The check of one dataset before a submission. -/
def DatasetPolicy.admits (policy : DatasetPolicy) (dataset : Dataset) : Except JobError Unit :=
  match dataset.sizeBytes with
  | .error error => .error (.conversion error)
  | .ok bytes =>
      match policy.check dataset.name dataset.kind (.int bytes) dataset.payload with
      | .error error => .error (.dataset error)
      | .ok _ => .ok ()

namespace ExternalProvider

variable (provider : ExternalProvider)

/-- The job is changed in place, so that it is given back whether the call returns or raises. -/
def submitJob (datasets : List Dataset) (answer : Except TransportFailure Unit)
    (job : ComputeJob) : Except JobError Unit × ComputeJob :=
  if provider.status ≠ .connected then
    (.error (.unavailable (provider.name ++ " is not connected")), job)
  else
    match datasets.forM provider.datasets.admits with
    | .error error => (.error error, job)
    | .ok _ =>
        let job := { job with provider := provider.name }
        match answer with
        | .error failure => (.error (.transport failure), job)
        | .ok _ => (.ok (), { job with status := .queued })

/-- The transport is asked for the state, and for the result of a job that has succeeded. -/
def pollJob (now : Int) (answer : Except TransportFailure String)
    (result : Except TransportFailure String) (job : ComputeJob) :
    Except JobError Unit × ComputeJob :=
  match answer with
  | .error (.cloud message) => (.error (.transport (.cloud message)), job)
  | .error (.other _) => (.error (.unavailable (provider.name ++ " poll failed")), job)
  | .ok state =>
      let job := { job with status := .ofState state }
      let job :=
        if job.status = .running ∧ job.startedAt = none then { job with startedAt := some now }
        else job
      if job.status.terminal then
        let job := { job with completedAt := some now }
        if job.status = .succeeded then
          match result with
          | .error failure => (.error (.transport failure), job)
          | .ok reference =>
              (.ok (), { job with resultReference := reference, updatedAt := now })
        else (.ok (), { job with error := "remote state " ++ state, updatedAt := now })
      else (.ok (), { job with updatedAt := now })

def cancelJob (now : Int) (answer : Except TransportFailure Unit) (job : ComputeJob) :
    Except JobError Unit × ComputeJob :=
  if job.status.terminal then
    (.error (.validation ("job " ++ Text.repr job.id ++ " already terminal")), job)
  else
    match answer with
    | .error (.cloud message) => (.error (.transport (.cloud message)), job)
    | .error (.other message) =>
        (.error (.unavailable (provider.name ++ " cancel failed: " ++ message)), job)
    | .ok _ =>
        (.ok (), { job with status := .cancelled, completedAt := some now, updatedAt := now })

end ExternalProvider

/-! ## Runs -/

/-- The calls, with what the transport answers. -/
inductive JobCall
  | submit (datasets : List Dataset) (answer : Except TransportFailure Unit)
  | poll (answer result : Except TransportFailure String)
  | cancel (answer : Except TransportFailure Unit)

/-- A call with the reading of the clock. The provider may have lost its connection since the
last call. -/
structure JobStep where
  provider : ExternalProvider
  now : Int
  call : JobCall

/-- The job, and the changes of its status. -/
structure JobHistory where
  job : ComputeJob
  moves : List (JobStatus × JobStatus) := []

namespace JobHistory

def perform (job : ComputeJob) (step : JobStep) : ComputeJob :=
  match step.call with
  | .submit datasets answer => (step.provider.submitJob datasets answer job).2
  | .poll answer result => (step.provider.pollJob step.now answer result job).2
  | .cancel answer => (step.provider.cancelJob step.now answer job).2

def record (history : JobHistory) (job : ComputeJob) : JobHistory where
  job := job
  moves :=
    if job.status = history.job.status then history.moves
    else history.moves ++ [(history.job.status, job.status)]

def step : StepFunction JobHistory JobStep :=
  fun history step => some (history.record (perform history.job step))

/-- The job has kept to its lifecycle: every change of the status was allowed and none left a
terminal status, and the job has been completed where it is terminal and has a result where it
has succeeded. -/
structure Lifecycle (history : JobHistory) : Prop where
  allowed : ∀ move ∈ history.moves, move.2 ∈ move.1.allowedMoves
  final : ∀ move ∈ history.moves, move.1.terminal = false
  completed : history.job.completedAt.isSome = true ↔ history.job.status.terminal = true
  result : history.job.resultReference ≠ "" ↔ history.job.status = .succeeded

/-- What is submitted is queued, what is reported does not change the status or is allowed to
follow it, and a job that is reported to be completed has a result then or has had one. -/
def Orderly (history : JobHistory) (step : JobStep) : Prop :=
  match step.call with
  | .submit datasets answer =>
      step.provider.status = .connected →
        (∀ dataset ∈ datasets, step.provider.datasets.admits dataset = .ok ()) →
          answer = .ok () → history.job.status = .queued
  | .poll (.ok state) result =>
      (JobStatus.ofState state = history.job.status ∨
        JobStatus.ofState state ∈ history.job.status.allowedMoves) ∧
      (JobStatus.ofState state = .succeeded →
        match result with
        | .ok reference => reference ≠ ""
        | .error _ => history.job.status = .succeeded)
  | .poll (.error _) _ => True
  | .cancel _ => True

/-! ## One call -/

theorem terminal_of_allowed {first second : JobStatus} (allowed : second ∈ first.allowedMoves) :
    first.terminal = false := by
  cases first <;> first | rfl | cases allowed

theorem queued_not_allowed (status : JobStatus) : .queued ∉ status.allowedMoves := by
  cases status <;> decide

theorem cancelled_allowed {status : JobStatus} (pending : status.terminal = false) :
    .cancelled ∈ status.allowedMoves := by
  cases status <;> first | decide | cases pending

/-- What is recorded is again in order exactly if the change is allowed and the job has kept its
marks. -/
theorem lifecycle_record_iff {history : JobHistory} (holds : history.Lifecycle)
    (job : ComputeJob) :
    (history.record job).Lifecycle ↔
      (job.status = history.job.status ∨ job.status ∈ history.job.status.allowedMoves) ∧
        (job.completedAt.isSome = true ↔ job.status.terminal = true) ∧
          (job.resultReference ≠ "" ↔ job.status = .succeeded) := by
  constructor
  · intro after
    refine ⟨?_, after.completed, after.result⟩
    by_cases same : job.status = history.job.status
    · exact .inl same
    · refine .inr (after.allowed (history.job.status, job.status) ?_)
      simp [record, same]
  · rintro ⟨moved, completed, result⟩
    refine ⟨?_, ?_, completed, result⟩ <;>
      · simp only [record]
        split
        · first | exact holds.allowed | exact holds.final
        · next differs =>
            have allowed := moved.resolve_left differs
            intro move inside
            rcases List.mem_append.mp inside with before | now
            · first | exact holds.allowed move before | exact holds.final move before
            · cases List.mem_singleton.mp now
              first | exact allowed | exact terminal_of_allowed allowed

/-- A job that keeps its status and its marks is still in order. -/
theorem lifecycle_record_of_same {history : JobHistory} (holds : history.Lifecycle)
    {job : ComputeJob} (status : job.status = history.job.status)
    (completed : job.completedAt = history.job.completedAt)
    (result : job.resultReference = history.job.resultReference) :
    (history.record job).Lifecycle := by
  rw [lifecycle_record_iff holds, status, completed, result]
  exact ⟨.inl rfl, holds.completed, holds.result⟩

theorem submit_iff {history : JobHistory} (holds : history.Lifecycle)
    (provider : ExternalProvider) (now : Int) (datasets : List Dataset)
    (answer : Except TransportFailure Unit) :
    (history.record (provider.submitJob datasets answer history.job).2).Lifecycle ↔
      history.Orderly { provider, now, call := .submit datasets answer } := by
  simp only [Orderly, ← forM_eq_ok]
  unfold ExternalProvider.submitJob
  split
  · next apart =>
      exact iff_of_true (lifecycle_record_of_same holds rfl rfl rfl) fun connected =>
        absurd connected apart
  · next connected =>
      have connected := not_not.mp connected
      split
      · next refused =>
          refine iff_of_true (lifecycle_record_of_same holds rfl rfl rfl) fun _ admitted => ?_
          cases refused.symm.trans admitted
      · next admitted =>
          cases answer with
          | error failure =>
              refine iff_of_true (lifecycle_record_of_same holds rfl rfl rfl) fun _ _ done => ?_
              cases done
          | ok _ =>
              rw [lifecycle_record_iff holds]
              have completed := holds.completed
              have result := holds.result
              constructor
              · rintro ⟨moved, _⟩ _ _ _
                rcases moved with same | allowed
                · exact same.symm
                · exact absurd allowed (queued_not_allowed history.job.status)
              · intro queued
                have isQueued := queued connected admitted rfl
                rw [isQueued] at completed result
                exact ⟨.inl isQueued.symm, completed, result⟩

theorem cancel_orderly {history : JobHistory} (holds : history.Lifecycle)
    (provider : ExternalProvider) (now : Int) (answer : Except TransportFailure Unit) :
    (history.record (provider.cancelJob now answer history.job).2).Lifecycle := by
  unfold ExternalProvider.cancelJob
  split
  · exact lifecycle_record_of_same holds rfl rfl rfl
  · next pending =>
      rw [Bool.not_eq_true] at pending
      cases answer with
      | error failure => cases failure <;> exact lifecycle_record_of_same holds rfl rfl rfl
      | ok _ =>
          have notYet : history.job.status ≠ .succeeded := by
            intro same
            rw [same] at pending
            cases pending
          rw [lifecycle_record_iff holds]
          refine ⟨.inr (cancelled_allowed pending), iff_of_true rfl rfl, ?_⟩
          exact iff_of_false (fun some => notYet (holds.result.mp some)) (by rintro ⟨⟩)

/-- The job as it is after a state has been reported. -/
theorem poll_job (provider : ExternalProvider) (now : Int) (state : String)
    (result : Except TransportFailure String) (job : ComputeJob) :
    let after := (provider.pollJob now (.ok state) result job).2
    after.status = .ofState state ∧
      after.completedAt = (if (JobStatus.ofState state).terminal then some now
        else job.completedAt) ∧
      after.resultReference = (if JobStatus.ofState state = .succeeded then
        match result with
        | .ok reference => reference
        | .error _ => job.resultReference
        else job.resultReference) := by
  simp only [ExternalProvider.pollJob]
  generalize JobStatus.ofState state = reported
  cases started : decide (reported = .running ∧ job.startedAt = none) <;>
    cases reported <;> cases result <;> simp_all [JobStatus.terminal]

/-- What is reported keeps the job in order exactly if it is orderly. -/
theorem poll_iff {history : JobHistory} (holds : history.Lifecycle)
    (provider : ExternalProvider) (now : Int) (answer result : Except TransportFailure String) :
    (history.record (provider.pollJob now answer result history.job).2).Lifecycle ↔
      history.Orderly { provider, now, call := .poll answer result } := by
  cases answer with
  | error failure =>
      exact iff_of_true (by cases failure <;> exact lifecycle_record_of_same holds rfl rfl rfl)
        trivial
  | ok state =>
      have ⟨status, completed, reference⟩ := poll_job provider now state result history.job
      rw [lifecycle_record_iff holds, status, completed, reference]
      simp only [Orderly]
      generalize JobStatus.ofState state = reported
      refine and_congr_right fun moved => ?_
      -- A terminal job stays as it is, so that the marks of an open one are not set.
      have kept : ∀ status : JobStatus, status.terminal = true → history.job.status = status →
          reported = status := by
        intro status terminal current
        rcases moved with same | allowed
        · exact same.trans current
        · rw [← current, terminal_of_allowed allowed] at terminal
          cases terminal
      have marked : (if reported.terminal = true then some now
          else history.job.completedAt).isSome = true ↔ reported.terminal = true := by
        split
        · next terminal => exact iff_of_true rfl terminal
        · next pending =>
            refine iff_of_false (fun some => pending ?_) pending
            have terminal := holds.completed.mp some
            rw [kept _ terminal rfl]
            exact terminal
      by_cases succeeded : reported = .succeeded
      · rw [if_pos succeeded]
        simp only [succeeded, forall_const, iff_true]
        rw [succeeded] at marked
        cases result with
        | ok reference => exact and_iff_right marked
        | error failure => exact (and_iff_right marked).trans holds.result
      · rw [if_neg succeeded]
        refine iff_of_true ⟨marked, iff_of_false (fun some => succeeded ?_) succeeded⟩
          fun same => absurd same succeeded
        exact kept .succeeded rfl (holds.result.mp some)

theorem step_iff {history next : JobHistory} {taken : JobStep} (holds : history.Lifecycle)
    (stepped : step history taken = some next) : next.Lifecycle ↔ history.Orderly taken := by
  cases stepped
  rcases taken with ⟨provider, now, call⟩
  cases call with
  | submit datasets answer => exact submit_iff holds provider now datasets answer
  | poll answer result => exact poll_iff holds provider now answer result
  | cancel answer => exact iff_of_true (cancel_orderly holds provider now answer) trivial

/-- In every run from a job that is in order, the job keeps to its lifecycle exactly if every
submission and every report is orderly. -/
theorem lifecycle_throughout_iff (job : ComputeJob) (steps : List JobStep) :
    step.Throughout Lifecycle { job } steps ↔
      JobHistory.Lifecycle { job } ∧ step.Meets Orderly { job } steps := by
  have run : JobHistory.Lifecycle { job } →
      (step.Throughout Lifecycle { job } steps ↔ step.Meets Orderly { job } steps) := fun holds =>
    StepFunction.throughout_iff_meets
      (fun _ _ _ _ holds stepped => ⟨trivial, step_iff holds stepped⟩)
      (fun _ _ disabled => by cases disabled) trivial holds
  constructor
  · intro throughout
    have holds := throughout [] _ List.nil_prefix rfl
    exact ⟨holds, (run holds).mp throughout⟩
  · rintro ⟨holds, meets⟩
    exact (run holds).mpr meets

/-- A job that has finished when it is polled for the first time. -/
def finishedAtOnce : List JobStep :=
  [{ provider := { name := "kaggle" }, now := 1, call := .submit [] (.ok ()) },
    { provider := { name := "kaggle" }, now := 2,
      call := .poll (.ok "COMPLETED") (.ok "mock://result/1") }]

theorem poll_skips_running :
    (∃ history, step.run { job := { id := "job" } } finishedAtOnce = some history ∧
      history.moves = [(.queued, .succeeded)]) ∧
    ¬ step.Throughout Lifecycle { job := { id := "job" } } finishedAtOnce := by
  have reached : ∃ history, step.run { job := { id := "job" } } finishedAtOnce = some history ∧
      history.moves = [(.queued, .succeeded)] := ⟨_, rfl, by decide⟩
  refine ⟨reached, fun throughout => ?_⟩
  rcases reached with ⟨history, ran, moves⟩
  have allowed := (throughout finishedAtOnce history List.prefix_rfl ran).allowed
  rw [moves] at allowed
  exact absurd (allowed _ List.mem_cons_self) (by decide)

end JobHistory

end Raphael.Cloud
