import Raphael.Agent.Multi.RunTracking
import Raphael.Agent.Multi.Supervisor

/-! # What a supervised run reports

`run_all` drops its pending records when it finds the token cancelled, and the results are
gathered under the ids of all records. A result is returned, with an entry for every task,
exactly if nothing was dropped. -/

namespace Raphael.Agent.Multi

open Core
open Foundation
open Persistence
open Agent.Executor

/-! ## Gathering -/

theorem gatherResult_eq_ok {byRecord results next : Dict String ExecutionResult}
    {record : AgentTask} (done : gatherResult byRecord results record = .ok next) :
    ∃ result, byRecord.get record.id = some result ∧
      next = results.set record.taskId result := by
  unfold gatherResult at done
  split at done
  · next result found =>
      cases done
      exact ⟨result, found, rfl⟩
  · cases done

/-- Where everything is gathered, every record has a result. -/
theorem isSome_of_gathered {byRecord results : Dict String ExecutionResult}
    {records : List AgentTask} {start : Dict String ExecutionResult}
    (done : records.foldlM (gatherResult byRecord) start = .ok results) :
    ∀ record ∈ records, (byRecord.get record.id).isSome := by
  induction records generalizing start with
  | nil => exact fun _ member => absurd member List.not_mem_nil
  | cons record rest induction =>
      rw [List.foldlM_cons] at done
      rcases except_bind_eq_ok.mp done with ⟨next, stepped, done⟩
      rcases gatherResult_eq_ok stepped with ⟨result, found, _⟩
      intro other member
      rcases List.mem_cons.mp member with rfl | member
      · rw [found]
        rfl
      · exact induction done other member

/-- What is gathered under the id of each task is the result of its record. -/
theorem get_of_gathered {byRecord results : Dict String ExecutionResult}
    {records : List AgentTask} {start : Dict String ExecutionResult}
    (distinct : (records.map AgentTask.taskId).Nodup)
    (done : records.foldlM (gatherResult byRecord) start = .ok results) :
    (∀ record ∈ records, results.get record.taskId = byRecord.get record.id) ∧
      ∀ taskId ∉ records.map AgentTask.taskId, results.get taskId = start.get taskId := by
  induction records generalizing start with
  | nil =>
      cases done
      exact ⟨fun _ member => absurd member List.not_mem_nil, fun _ _ => rfl⟩
  | cons record rest induction =>
      rw [List.foldlM_cons] at done
      rcases except_bind_eq_ok.mp done with ⟨next, stepped, done⟩
      rcases gatherResult_eq_ok stepped with ⟨result, found, rfl⟩
      rcases List.nodup_cons.mp distinct with ⟨absent, distinct⟩
      rcases induction distinct done with ⟨each, others⟩
      constructor
      · intro other member
        rcases List.mem_cons.mp member with rfl | member
        · rw [others _ absent, Dict.get_set, if_pos rfl, found]
        · exact each other member
      · intro taskId outside
        rw [List.map_cons, List.mem_cons, not_or] at outside
        rw [others taskId outside.2, Dict.get_set, if_neg outside.1]

/-- Everything is gathered if every record has a result. -/
theorem gatherResults_ok {byRecord : Dict String ExecutionResult} {records : List AgentTask}
    (all : ∀ record ∈ records, (byRecord.get record.id).isSome) :
    ∃ results, gatherResults byRecord records = .ok results := by
  have each : ∀ record rest results,
      (∀ other ∈ record :: rest, (byRecord.get other.id).isSome = true) →
      ∃ next, gatherResult byRecord results record = .ok next ∧
        ∀ other ∈ rest, (byRecord.get other.id).isSome = true := by
    intro record rest results all
    rcases Option.isSome_iff_exists.mp (all record List.mem_cons_self) with ⟨result, found⟩
    refine ⟨results.set record.taskId result, ?_, fun other member =>
      all other (List.mem_cons_of_mem _ member)⟩
    rw [gatherResult, found]
  rcases foldlM_ok (gatherResult byRecord) records Dict.empty
    (fun rest _ => ∀ other ∈ rest, (byRecord.get other.id).isSome = true) each all
    with ⟨results, done, _⟩
  exact ⟨results, done⟩

theorem SupervisorResult.mem_succeeded {result : SupervisorResult} {taskId : String} :
    taskId ∈ result.succeeded ↔
      ∃ outcome, result.results.get taskId = some outcome ∧ outcome.status = .completed := by
  simp only [SupervisorResult.succeeded, List.mem_map, List.mem_filter, decide_eq_true_eq,
    Dict.get_eq_some_iff]
  constructor
  · rintro ⟨⟨key, outcome⟩, ⟨stored, completed⟩, rfl⟩
    exact ⟨outcome, stored, completed⟩
  · rintro ⟨outcome, stored, completed⟩
    exact ⟨(taskId, outcome), ⟨stored, completed⟩, rfl⟩

/-- There is an entry for every task, a task that was never run is not reported as
succeeded, and the succeeded and failed ones are the tasks, each on one side. -/
structure Reports (ran : List String) (records : List AgentTask) (result : SupervisorResult) :
    Prop where
  taskIds : result.taskIds = records.map AgentTask.taskId
  entries : ∀ taskId ∈ result.taskIds, (result.results.get taskId).isSome
  unrun : ∀ record ∈ records, record.id ∉ ran → record.taskId ∉ result.succeeded
  both : ∀ taskId, taskId ∈ result.taskIds ↔
    taskId ∈ result.succeeded ∨ taskId ∈ result.failed
  apart : ∀ taskId ∈ result.succeeded, taskId ∉ result.failed

theorem Reports.mono {ran later : List String} {records : List AgentTask}
    {result : SupervisorResult} (reports : Reports ran records result)
    (kept : ∀ id ∈ ran, id ∈ later) : Reports later records result :=
  { reports with unrun := fun record member unrun =>
      reports.unrun record member fun was => unrun (kept _ was) }

/-- What is gathered when the loop is over. -/
theorem reports_of_gathered {byRecord results : Dict String ExecutionResult}
    {records : List AgentTask} {ran : List String}
    (distinct : (records.map AgentTask.taskId).Nodup)
    (completed : ∀ recordId result, byRecord.get recordId = some result →
      result.status = .completed → recordId ∈ ran)
    (done : gatherResults byRecord records = .ok results) :
    Reports ran records { taskIds := records.map AgentTask.taskId, results } := by
  rcases get_of_gathered distinct done with ⟨each, others⟩
  have inside : ∀ taskId outcome, results.get taskId = some outcome →
      taskId ∈ records.map AgentTask.taskId := by
    intro taskId outcome found
    by_contra outside
    rw [others taskId outside] at found
    cases found
  refine ⟨rfl, ?_, ?_, ?_, ?_⟩
  · intro taskId member
    rcases List.mem_map.mp member with ⟨record, stored, rfl⟩
    rw [each record stored]
    exact isSome_of_gathered done record stored
  · intro record member unrun succeeded
    rcases SupervisorResult.mem_succeeded.mp succeeded with ⟨outcome, found, status⟩
    rw [each record member] at found
    exact unrun (completed record.id outcome found status)
  · intro taskId
    simp only [SupervisorResult.failed, List.mem_filter, Bool.not_eq_true',
      List.contains_eq_mem, decide_eq_false_iff_not]
    constructor
    · intro member
      exact (Classical.em _).imp_right fun failed => ⟨member, failed⟩
    · rintro (succeeded | ⟨member, _⟩)
      · rcases SupervisorResult.mem_succeeded.mp succeeded with ⟨outcome, found, _⟩
        exact inside taskId outcome found
      · exact member
  · intro taskId succeeded failed
    simp only [SupervisorResult.failed, List.mem_filter, Bool.not_eq_true',
      List.contains_eq_mem, decide_eq_false_iff_not] at failed
    exact failed.2 succeeded

/-! ## Runs -/

/-- The spec that is submitted next. -/
def SupervisorPhase.due : SupervisorPhase → Option SubtaskSpec
  | .submitting (spec :: _) _ => some spec
  | _ => none

namespace Supervision

variable {Call : Type u} {Caller : Type v}

/-- The records that are submitted are stored, each under an id of its own and for a task of
its own. -/
structure Submitted (state : Supervision Call Caller) (records : List AgentTask) : Prop where
  ids : (records.map AgentTask.id).Nodup
  taskIds : (records.map AgentTask.taskId).Nodup
  stored : ∀ record ∈ records, (state.runs.tasks.get record.id).isSome
  known : ∀ record ∈ records, record.taskId ∈ state.runtimeTasks

/-- What holds while a supervised run goes on, and of the result that it has returned. -/
def Sound (caller : Caller) (state : Supervision Call Caller) : Prop :=
  match state.phase with
  | .submitting _ records => state.runs.fanOut caller = none ∧ state.Submitted records
  | .running records =>
      (records.map AgentTask.taskId).Nodup ∧
        ∀ run, state.runs.fanOut caller = some run → state.runs.Tracks run ∧
          ∀ id ∈ run.known, id ∈ records.map AgentTask.id
  | .returned records (.ok result) =>
      Reports state.runs.ran records result ∧
        ∃ run, state.runs.fanOut caller = some run ∧ run.pending = [] ∧ run.inFlight = []
  | .returned _ (.error _) => True

/-- Nothing was refused, dropped or raised. -/
def OnCourse (caller : Caller) (state : Supervision Call Caller) : Prop :=
  match state.phase with
  | .submitting _ _ => True
  | .running records => ∃ run, state.runs.fanOut caller = some run ∧
      ∀ record ∈ records, record.id ∈ run.known
  | .returned _ (.ok _) => True
  | .returned _ (.error _) => False

/-- The call of a worker that has ended with what is no `Exception`. -/
def Interrupted (state : Supervision Call Caller) (call : Call) : Prop :=
  match state.runs.phase call with
  | some (.returned .interrupted) => True
  | _ => False

instance (state : Supervision Call Caller) (call : Call) :
    Decidable (state.Interrupted call) := by
  unfold Interrupted
  split <;> infer_instance

/-- A subtask that is submitted is accepted, `run_all` does not find its token cancelled when
it turns to a pending record, and no call of it ends with what is no `Exception`. -/
def Undisturbed (caller : Caller) (state : Supervision Call Caller) :
    SupervisorAction Call Caller → Prop
  | .submit arrival => ∀ spec ∈ state.phase.due,
      Accepts state.runs.agents state.runs.tasks state.runtimeTasks spec arrival
  | .run (.stop other) => other ≠ caller
  | .run (.collect other call) => other = caller → ¬ state.Interrupted call
  | _ => True

instance [DecidableEq Caller] (caller : Caller) (state : Supervision Call Caller) :
    (action : SupervisorAction Call Caller) → Decidable (state.Undisturbed caller action)
  | .submit arrival => inferInstanceAs (Decidable (∀ spec ∈ state.phase.due,
      Accepts state.runs.agents state.runs.tasks state.runtimeTasks spec arrival))
  | .run (.stop other) => inferInstanceAs (Decidable (other ≠ caller))
  | .run (.collect other call) =>
      inferInstanceAs (Decidable (other = caller → ¬ state.Interrupted call))
  | .run (.runTask _ _) | .run (.advance _ _) | .run (.executorEnds _ _) | .run (.runAll _ _)
  | .run (.submit _ _) | .runAll | .cancel | .gather => .isTrue trivial

variable {state next : Supervision Call Caller}

theorem nodup_append_singleton {items : List String} {item : String} (distinct : items.Nodup)
    (absent : item ∉ items) : (items ++ [item]).Nodup :=
  distinct.append (List.nodup_singleton item) (List.disjoint_singleton.mpr absent)

/-- A new record is submitted behind the others. -/
theorem Submitted.append {records : List AgentTask} {record : AgentTask}
    (submitted : state.Submitted records)
    (unused : state.runs.tasks.get record.id = none)
    (fresh : record.taskId ∉ state.runtimeTasks)
    (stored : ∀ other, next.runs.tasks.get other =
      if other = record.id then some record else state.runs.tasks.get other)
    (tasks : next.runtimeTasks = state.runtimeTasks ++ [record.taskId]) :
    next.Submitted (records ++ [record]) := by
  refine ⟨?_, ?_, ?_, ?_⟩
  · rw [List.map_append]
    refine nodup_append_singleton submitted.ids fun member => ?_
    rcases List.mem_map.mp member with ⟨other, inside, same⟩
    have held := submitted.stored other inside
    rw [same, unused] at held
    cases held
  · rw [List.map_append]
    refine nodup_append_singleton submitted.taskIds fun member => ?_
    rcases List.mem_map.mp member with ⟨other, inside, same⟩
    exact fresh (same ▸ submitted.known other inside)
  · intro other member
    rw [stored]
    split
    · rfl
    · next differs =>
        rcases List.mem_append.mp member with inside | own
        · exact submitted.stored other inside
        · cases List.mem_singleton.mp own
          exact absurd rfl differs
  · intro other member
    rw [tasks]
    rcases List.mem_append.mp member with inside | own
    · exact List.mem_append_left _ (submitted.known other inside)
    · cases List.mem_singleton.mp own
      exact List.mem_append_right _ (List.mem_singleton_self _)

variable [DecidableEq Call] [DecidableEq Caller] {maxWorkers : Nat} {caller : Caller}

/-- A submission is either refused, or makes a new record. -/
theorem step_submit {arrival : Arrival} (sound : state.Sound caller)
    (stepped : step maxWorkers caller state (.submit arrival) = some next) :
    next.Sound caller ∧
      (next.OnCourse caller ↔ state.Undisturbed caller (.submit arrival)) := by
  simp only [step] at stepped
  split at stepped
  · next spec rest records phase =>
      simp only [Sound, phase] at sound
      rcases sound with ⟨unused, submitted⟩
      simp only [Undisturbed, phase, SupervisorPhase.due, Option.mem_some_iff, forall_eq']
      split at stepped
      · next error refused =>
          cases stepped
          refine ⟨trivial, iff_of_false id fun accepts => ?_⟩
          rcases submit_ok accepts with ⟨made, same⟩
          cases refused.symm.trans same
      · next tasks runtimeTasks record made =>
          cases stepped
          rcases submit_eq_ok made with ⟨accepts, submits⟩
          refine ⟨⟨unused, submitted.append ?_ ?_ submits.stored ?_⟩, iff_of_true trivial accepts⟩
          · exact submits.id ▸ Option.isNone_iff_eq_none.mp accepts.newRecord
          · exact submits.taskId ▸ accepts.newTask
          · rw [submits.taskId, submits.created]
  · cases stepped

/-- `run_all` is called with the records that were submitted. -/
theorem step_runAll (sound : state.Sound caller)
    (stepped : step maxWorkers caller state .runAll = some next) :
    next.Sound caller ∧ next.OnCourse caller := by
  simp only [step] at stepped
  split at stepped
  · next records phase =>
      simp only [Sound, phase] at sound
      rcases sound with ⟨unused, submitted⟩
      simp only [AgentRuns.step, unused, Option.map_some] at stepped
      cases stepped
      have known : RunAll.known ({ pending := records.map AgentTask.id } : RunAll Call) =
          records.map AgentTask.id := List.append_nil _
      have begun : Function.update state.runs.fanOut caller
          (some { pending := records.map AgentTask.id }) caller =
            some { pending := records.map AgentTask.id } := Function.update_self ..
      refine ⟨⟨submitted.taskIds, fun run found => ?_⟩, ?_⟩
      · cases begun.symm.trans found
        refine ⟨⟨?_, List.nodup_nil, ?_, ?_⟩, ?_⟩
        · rw [known]
          exact submitted.ids
        · intro entry member
          cases member
        · intro recordId result found
          cases found
        · intro id member
          rwa [known] at member
      · refine ⟨_, begun, fun record member => ?_⟩
        rw [known]
        exact List.mem_map_of_mem member
  · cases stepped

/-- The loop is over: everything is gathered. -/
theorem step_gather (sound : state.Sound caller) (onCourse : state.OnCourse caller)
    (stepped : step maxWorkers caller state .gather = some next) :
    next.Sound caller ∧ next.OnCourse caller := by
  simp only [step] at stepped
  split at stepped
  · next records phase =>
      simp only [Sound, phase] at sound
      simp only [OnCourse, phase] at onCourse
      rcases onCourse with ⟨run, runs, covered⟩
      rcases sound with ⟨distinct, tracked⟩
      rcases tracked run runs with ⟨tracks, _⟩
      simp only [gathered, runs] at stepped
      split at stepped
      · next finished =>
          have all : ∀ record ∈ records, (run.results.get record.id).isSome := by
            intro record member
            have known := covered record member
            rw [RunAll.known, finished.1, finished.2] at known
            exact Dict.get_isSome.mpr known
          rcases gatherResults_ok all with ⟨results, done⟩
          rw [done] at stepped
          cases stepped
          exact ⟨⟨reports_of_gathered distinct tracks.ran done, run, runs, finished⟩, trivial⟩
      · cases stepped
  · cases stepped

/-- Without a `run_all` nothing of it is stopped or collected. -/
theorem undisturbed_of_unused {runs : AgentRuns Call Caller} {action : RunAction Call Caller}
    (unused : state.runs.fanOut caller = none)
    (stepped : AgentRuns.step maxWorkers state.runs action = some runs) :
    state.Undisturbed caller (.run action) := by
  cases action with
  | stop other =>
      rintro rfl
      simp only [AgentRuns.step, unused] at stepped
      cases stepped
  | collect other call =>
      rintro rfl
      simp only [AgentRuns.step, unused] at stepped
      cases stepped
  | _ => trivial

omit [DecidableEq Call] [DecidableEq Caller] in
theorem undisturbed_of_aside {action : RunAction Call Caller} (goesOn : action ≠ .stop caller)
    (other : ∀ call, action ≠ .collect caller call) :
    state.Undisturbed caller (.run action) := by
  cases action with
  | stop another =>
      rintro rfl
      exact goesOn rfl
  | collect another call =>
      rintro rfl
      exact absurd rfl (other call)
  | _ => trivial

omit [DecidableEq Call] in
/-- The token stops the loop only when a record is pending. -/
theorem pending_of_stop (admitted : state.admits maxWorkers caller (.stop caller) = true)
    {run : RunAll Call} (runs : state.runs.fanOut caller = some run) : run.pending ≠ [] := by
  intro none
  simp [admits, runs, none] at admitted

/-- A step while the specs are being submitted. -/
theorem run_submitting {rest : List SubtaskSpec} {records : List AgentTask}
    {runs : AgentRuns Call Caller} {action : RunAction Call Caller}
    (phase : state.phase = .submitting rest records) (sound : state.Sound caller)
    (admitted : state.admits maxWorkers caller action = true)
    (stepped : AgentRuns.step maxWorkers state.runs action = some runs) :
    Sound caller { state with runs } ∧ (OnCourse caller { state with runs } ↔
      state.Undisturbed caller (.run action)) := by
  simp only [Sound, OnCourse, phase] at sound ⊢
  rcases sound with ⟨unused, submitted⟩
  refine ⟨⟨AgentRuns.fanOut_none_step stepped unused ?_, ?_⟩, iff_of_true trivial
    (undisturbed_of_unused unused stepped)⟩
  · rintro recordIds rfl
    simp [admits] at admitted
  · exact { submitted with stored := fun record member =>
      AgentRuns.stored_step stepped (submitted.stored record member) }

/-- A step of the loop, or beside it. -/
theorem run_running {records : List AgentTask} {runs : AgentRuns Call Caller}
    {action : RunAction Call Caller} (phase : state.phase = .running records)
    (sound : state.Sound caller) (onCourse : state.OnCourse caller)
    (admitted : state.admits maxWorkers caller action = true)
    (stepped : AgentRuns.step maxWorkers state.runs action = some runs) :
    Sound caller { state with runs } ∧ (OnCourse caller { state with runs } ↔
      state.Undisturbed caller (.run action)) := by
  simp only [Sound, OnCourse, phase] at sound onCourse ⊢
  rcases sound with ⟨distinct, tracked⟩
  rcases onCourse with ⟨run, held, covered⟩
  rcases tracked run held with ⟨tracks, known⟩
  have looped := AgentRuns.fanOut_step stepped held
  have sound : ∀ after, runs.fanOut caller = some after → runs.Tracks after ∧
      ∀ id ∈ after.known, id ∈ records.map AgentTask.id := by
    intro after later
    exact ⟨(tracks.step stepped held later).1, fun id member =>
      known id (AgentRuns.known_subset looped later id member)⟩
  have kept : ∀ after, runs.fanOut caller = some after → action ≠ .stop caller →
      ∃ after, runs.fanOut caller = some after ∧ ∀ record ∈ records, record.id ∈ after.known := by
    intro after later goesOn
    refine ⟨after, later, fun record member => ?_⟩
    exact ((tracks.step stepped held later).2 goesOn).mem_iff.mpr (covered record member)
  refine ⟨⟨distinct, sound⟩, ?_⟩
  cases looped with
  | aside same goesOn other =>
      exact iff_of_true (kept run same goesOn) (undisturbed_of_aside goesOn other)
  | submit unused pending fanOut looks => exact iff_of_true (kept _ fanOut (by simp)) trivial
  | stop fanOut =>
      refine iff_of_false ?_ fun undisturbed => undisturbed rfl
      rintro ⟨after, later, still⟩
      cases fanOut.symm.trans later
      rcases List.exists_cons_of_ne_nil (pending_of_stop admitted held)
        with ⟨recordId, rest, pending⟩
      have inside : recordId ∈ run.known := by
        rw [RunAll.known, pending]
        exact List.mem_cons_self
      rcases List.mem_map.mp (known recordId inside) with ⟨record, member, rfl⟩
      have apart := tracks.distinct
      rw [RunAll.known, pending, List.cons_append, List.nodup_cons] at apart
      exact apart.1 (List.mem_append_right _ (still record member))
  | @collect call ending recordId stands found fanOut =>
      cases collected : ending.collected state.runs.tasks recordId with
      | none =>
          rw [collected] at fanOut
          refine iff_of_false ?_ fun undisturbed => undisturbed rfl ?_
          · rintro ⟨after, later, _⟩
            cases fanOut.symm.trans later
          · cases ending with
            | result outcome => cases collected
            | raised name text => cases collected
            | interrupted => simp only [Interrupted, stands]
      | some result =>
          rw [collected] at fanOut
          refine iff_of_true (kept _ fanOut (by simp)) fun _ interrupted => ?_
          simp only [Interrupted, stands] at interrupted
          cases ending with
          | interrupted => cases collected
          | _ => exact interrupted

/-- A step behind the end of the run. -/
theorem run_returned {records : List AgentTask} {result : SupervisorResult}
    {runs : AgentRuns Call Caller} {action : RunAction Call Caller}
    (phase : state.phase = .returned records (.ok result)) (sound : state.Sound caller)
    (admitted : state.admits maxWorkers caller action = true)
    (stepped : AgentRuns.step maxWorkers state.runs action = some runs) :
    Sound caller { state with runs } ∧ (OnCourse caller { state with runs } ↔
      state.Undisturbed caller (.run action)) := by
  simp only [Sound, OnCourse, phase] at sound ⊢
  rcases sound with ⟨reports, run, held, empty, idle⟩
  have reports := reports.mono (AgentRuns.ran_step stepped)
  cases AgentRuns.fanOut_step stepped held with
  | aside same goesOn other =>
      exact ⟨⟨reports, run, same, empty, idle⟩,
        iff_of_true trivial (undisturbed_of_aside goesOn other)⟩
  | submit unused pending fanOut looks =>
      rw [empty] at pending
      cases pending
  | stop fanOut => exact absurd empty (pending_of_stop admitted held)
  | collect stands found fanOut =>
      rw [idle] at found
      cases found

/-- One step keeps on course exactly if nothing disturbs it. -/
theorem step_onCourse {action : SupervisorAction Call Caller} (sound : state.Sound caller)
    (onCourse : state.OnCourse caller)
    (stepped : step maxWorkers caller state action = some next) :
    next.Sound caller ∧ (next.OnCourse caller ↔ state.Undisturbed caller action) := by
  cases action with
  | submit arrival => exact step_submit sound stepped
  | runAll =>
      rcases step_runAll sound stepped with ⟨sound, onCourse⟩
      exact ⟨sound, iff_of_true onCourse trivial⟩
  | cancel =>
      cases stepped
      refine ⟨?_, iff_of_true onCourse trivial⟩
      cases phase : state.phase with
      | submitting rest records =>
          simp only [Sound, phase] at sound ⊢
          exact ⟨sound.1, { sound.2 with }⟩
      | running records => simpa only [Sound, phase] using sound
      | returned records outcome =>
          cases outcome with
          | ok result => simpa only [Sound, phase] using sound
          | error error => trivial
  | run action =>
      simp only [step] at stepped
      split at stepped
      · next admitted =>
          rcases Option.map_eq_some_iff.mp stepped with ⟨runs, ran, rfl⟩
          cases phase : state.phase with
          | submitting rest records =>
              simpa only [phase] using run_submitting phase sound admitted ran
          | running records =>
              simpa only [phase] using run_running phase sound onCourse admitted ran
          | returned records outcome =>
              cases outcome with
              | ok result => simpa only [phase] using run_returned phase sound admitted ran
              | error error =>
                  simp only [OnCourse, phase] at onCourse
      · cases stepped
  | gather =>
      rcases step_gather sound onCourse stepped with ⟨sound, onCourse⟩
      exact ⟨sound, iff_of_true onCourse trivial⟩

/-- What is off course stays so. -/
theorem onCourse_of_step {action : SupervisorAction Call Caller}
    (stepped : step maxWorkers caller state action = some next)
    (onCourse : next.OnCourse caller) : state.OnCourse caller := by
  cases action with
  | submit arrival =>
      simp only [step] at stepped
      split at stepped
      · next phase => simp only [OnCourse, phase]
      · cases stepped
  | runAll =>
      simp only [step] at stepped
      split at stepped
      · next phase => simp only [OnCourse, phase]
      · cases stepped
  | cancel =>
      cases stepped
      exact onCourse
  | run action =>
      simp only [step] at stepped
      split at stepped
      · next admitted =>
        rcases Option.map_eq_some_iff.mp stepped with ⟨runs, ran, rfl⟩
        cases phase : state.phase with
        | submitting rest records => simp only [OnCourse, phase]
        | running records =>
            simp only [OnCourse, phase] at onCourse ⊢
            rcases onCourse with ⟨after, later, covered⟩
            cases held : state.runs.fanOut caller with
            | none =>
                rw [AgentRuns.fanOut_none_step ran held ?_] at later
                · cases later
                · rintro recordIds rfl
                  simp [admits] at admitted
            | some run =>
                have looped := AgentRuns.fanOut_step ran held
                exact ⟨run, rfl, fun record member =>
                  AgentRuns.known_subset looped later _ (covered record member)⟩
        | returned records outcome =>
            cases outcome with
            | ok result => simp only [OnCourse, phase]
            | error error => simp only [OnCourse, phase] at onCourse
      · cases stepped
  | gather =>
      simp only [step] at stepped
      split at stepped
      · next records phase =>
          simp only [OnCourse, phase]
          rcases Option.map_eq_some_iff.mp stepped with ⟨outcome, gathers, rfl⟩
          cases held : state.runs.fanOut caller with
          | none =>
              rw [held] at gathers
              cases gathers
              exact onCourse.elim
          | some run =>
              simp only [gathered, held] at gathers
              split at gathers
              · cases done : gatherResults run.results records with
                | error error =>
                    rw [done] at gathers
                    cases gathers
                    exact onCourse.elim
                | ok results =>
                    refine ⟨run, rfl, fun record member => ?_⟩
                    have found := isSome_of_gathered done record member
                    exact List.mem_append_right _
                      (List.mem_append_right _ (Dict.get_isSome.mp found))
              · cases gathers
      · cases stepped

omit [DecidableEq Call] [DecidableEq Caller] in
/-- A run begins on course exactly if there is a subtask. -/
theorem onCourse_start {tasks : SnapshotTable AgentTask} {agents : AgentRegistry}
    {runtimeTasks : List String} {specs : List SubtaskSpec} :
    (start tasks agents runtimeTasks specs : Supervision Call Caller).OnCourse caller ↔
      specs ≠ [] := by
  cases specs with
  | nil => exact iff_of_false id fun distinct => distinct rfl
  | cons spec rest => exact iff_of_true trivial (List.cons_ne_nil spec rest)

omit [DecidableEq Call] [DecidableEq Caller] in
theorem sound_start {tasks : SnapshotTable AgentTask} {agents : AgentRegistry}
    {runtimeTasks : List String} {specs : List SubtaskSpec} :
    (start tasks agents runtimeTasks specs : Supervision Call Caller).Sound caller := by
  cases specs with
  | nil => trivial
  | cons spec rest =>
      refine ⟨rfl, List.nodup_nil, List.nodup_nil, ?_, ?_⟩ <;>
        exact fun record member => absurd member List.not_mem_nil

/-- A supervised run that has come to its end returns a report of every subtask exactly if
there are subtasks and nothing has disturbed it. -/
theorem reports_iff_undisturbed (maxWorkers : Nat) (caller : Caller)
    (tasks : SnapshotTable AgentTask) (agents : AgentRegistry) (runtimeTasks : List String)
    (specs : List SubtaskSpec) (actions : List (SupervisorAction Call Caller))
    (final : Supervision Call Caller) (records : List AgentTask)
    (outcome : Except Error SupervisorResult)
    (reached : StepFunction.run (step maxWorkers caller)
      (start tasks agents runtimeTasks specs) actions = some final)
    (ended : final.phase = .returned records outcome) :
    (∃ result, outcome = .ok result ∧ Reports final.runs.ran records result) ↔
      specs ≠ [] ∧ StepFunction.Meets (step maxWorkers caller) (Undisturbed caller)
        (start tasks agents runtimeTasks specs) actions := by
  have persists : ∀ (state : Supervision Call Caller) action next,
      step maxWorkers caller state action = some next → next.OnCourse caller →
        state.OnCourse caller := fun state action next => onCourse_of_step
  have onCourse : (∃ result, outcome = .ok result ∧ Reports final.runs.ran records result) →
      final.OnCourse caller := by
    rintro ⟨result, rfl, _⟩
    simp only [OnCourse, ended]
  constructor
  · intro reports
    have begun := StepFunction.wanted_of_run persists reached (onCourse reports)
    refine ⟨onCourse_start.mp begun, ?_⟩
    exact (StepFunction.final_iff_meets
      (fun state action next sound onCourse _ stepped => step_onCourse sound onCourse stepped)
      persists sound_start begun (StepFunction.meets_true _ _ _) reached).mp (onCourse reports)
  · rintro ⟨some, meets⟩
    -- what a step preserves that nothing disturbs
    have preserved : ∀ (state : Supervision Call Caller) action next,
        state.Sound caller ∧ state.OnCourse caller → state.Undisturbed caller action →
        step maxWorkers caller state action = Option.some next →
        next.Sound caller ∧ next.OnCourse caller := by
      rintro state action next ⟨sound, onCourse⟩ undisturbed stepped
      rcases step_onCourse sound onCourse stepped with ⟨sound, same⟩
      exact ⟨sound, same.mpr undisturbed⟩
    rcases StepFunction.invariant_of_meets preserved ⟨sound_start, onCourse_start.mpr some⟩
      meets reached with ⟨sound, stays⟩
    cases outcome with
    | ok result =>
        simp only [Sound, ended] at sound
        exact ⟨result, rfl, sound.1⟩
    | error error => simp only [OnCourse, ended] at stays

/-! ## Concrete runs -/

/-- An agent that takes tasks. -/
def readyAgent : AgentRegistry :=
  ((SnapshotTable.empty "agent_definitions").update 0 { id := "a", status := .ready }).1

/-- Two subtasks of this agent. -/
def twoSpecs : List SubtaskSpec :=
  [{ agentId := "a", goal := "first", plan := { id := "p" } },
    { agentId := "a", goal := "second", plan := { id := "q" } }]

/-- Both are submitted, and `run_all` is called. -/
def delegated : List (SupervisorAction Nat Unit) :=
  [.submit { taskId := "t1", recordId := "r1" }, .submit { taskId := "t2", recordId := "r2" },
    .runAll]

/-- A worker takes the next record, and runs it to its end. -/
def worked (call : Nat) (status : OverallStatus) : List (SupervisorAction Nat Unit) :=
  [.run (.submit () call), .run (.advance call 0), .run (.advance call 0),
    .run (.advance call 0), .run (.advance call 0),
    .run (.executorEnds call (.result { status })), .run (.advance call 0),
    .run (.advance call 0), .run (.advance call 0), .run (.collect () call)]

theorem reports_of_two : ∃ (final : Supervision Nat Unit) (records : List AgentTask)
    (outcome : Except Error SupervisorResult),
    StepFunction.run (step 4 ()) (start (.empty "agent_tasks") readyAgent [] twoSpecs)
        (delegated ++ worked 0 .completed ++ worked 1 .failed ++ [.cancel, .gather]) =
          some final ∧ final.phase = .returned records outcome ∧
      ∃ result, outcome = .ok result ∧ Reports final.runs.ran records result := by
  have meets : StepFunction.Meets (step 4 ()) (Undisturbed ())
      (start (.empty "agent_tasks") readyAgent [] twoSpecs)
      (delegated ++ worked 0 .completed ++ worked 1 .failed ++ [.cancel, .gather]) := by
    decide
  exact ⟨_, _, _, rfl, rfl, (reports_iff_undisturbed 4 () (.empty "agent_tasks") readyAgent []
    twoSpecs _ _ _ _ rfl rfl).mpr ⟨List.cons_ne_nil _ _, meets⟩⟩

/-- The token is cancelled before `run_all` has begun: no record has a result, and the first
one is looked up nevertheless. -/
theorem gather_raises_of_cancelled : ¬ ∀ (actions : List (SupervisorAction Nat Unit))
    (final : Supervision Nat Unit) (records : List AgentTask)
    (outcome : Except Error SupervisorResult),
    StepFunction.run (step 4 ()) (start (.empty "agent_tasks") readyAgent [] twoSpecs)
        actions = some final →
      final.phase = .returned records outcome →
        ∃ result, outcome = .ok result ∧ Reports final.runs.ran records result := by
  intro all
  rcases all (delegated ++ [.cancel, .run (.stop ()), .gather]) _ _
    (.error (.other "'r1'")) rfl rfl with ⟨result, returned, _⟩
  cases returned

end Supervision

end Raphael.Agent.Multi
