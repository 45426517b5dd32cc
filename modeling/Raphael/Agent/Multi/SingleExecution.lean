import Raphael.Agent.Multi.AgentRuns
import Raphael.Foundation.SlotTable

/-! # The plan of an agent task is executed once

`run_task` reads the status of its record, and writes RUNNING later. The plan is executed at
most once as long as no other call has written the record in between. -/

namespace Raphael.Agent.Multi

open Foundation
open Persistence

namespace AgentRuns

variable {Call : Type u} {Caller : Type v}

/-- No record was given to an executor twice. -/
def RunsOnce (state : AgentRuns Call Caller) : Prop :=
  (state.executed.map AgentTask.id).Nodup

/-- A call that writes RUNNING writes it ended a record that has not run yet. -/
def ClaimsUnrun (state : AgentRuns Call Caller) : RunAction Call Caller → Prop
  | .advance call _ =>
      match state.phase call with
      | some (.claiming record) =>
          (state.tasks.get record.id).any (·.status.runnable) = true
      | _ => True
  | _ => True

instance (state : AgentRuns Call Caller) (action : RunAction Call Caller) :
    Decidable (state.ClaimsUnrun action) := by
  unfold ClaimsUnrun
  split
  · split <;> infer_instance
  · exact instDecidableTrue

/-- The stored record has run, or is running. -/
def Ran (tasks : SnapshotTable AgentTask) (recordId : String) : Prop :=
  ∃ stored, tasks.get recordId = some stored ∧ stored.status.runnable = false

/-- A record that was claimed is not claimed again. -/
structure Claimed (state : AgentRuns Call Caller) : Prop where
  once : state.RunsOnce
  ran : ∀ recordId ∈ state.executed.map AgentTask.id, Ran state.tasks recordId
  marks : ∀ call record, state.phase call = some (.marking record) →
    Ran state.tasks record.id ∧ record.id ∉ state.executed.map AgentTask.id
  alone : ∀ call other record another, state.phase call = some (.marking record) →
    state.phase other = some (.marking another) → record.id = another.id → call = other
  closed : ∀ call record result, state.phase call = some (.summarizing record result) →
    record.status.runnable = false

/-- A phase that neither claims a record nor closes one that has not run. -/
def Quiet : RunPhase → Prop
  | .marking _ => False
  | .summarizing record _ => record.status.runnable = false
  | _ => True

variable {tasks : SnapshotTable AgentTask} {record : AgentTask} {recordId : String} {now : Int}

/-- A record that has run stays so, whichever record is written with a status of its kind. -/
theorem ran_update (status : record.status.runnable = false) (ran : Ran tasks recordId) :
    Ran (tasks.update now record).1 recordId := by
  rcases ran with ⟨stored, found, ended⟩
  rw [Ran, SnapshotTable.get_update]
  split
  · exact ⟨_, rfl, status⟩
  · exact ⟨stored, found, ended⟩

theorem ran_updated (status : record.status.runnable = false) :
    Ran (tasks.update now record).1 record.id := by
  rw [Ran, SnapshotTable.get_update]
  exact ⟨_, if_pos rfl, status⟩

section Steps

variable [DecidableEq Call]
variable {state next : AgentRuns Call Caller} {call : Call} {phase : RunPhase}

/-- A step into a quiet phase, that leaves every record that has run as one. -/
theorem Claimed.of_quiet (claimed : state.Claimed)
    (phases : next.phase = Function.update state.phase call (some phase)) (quiet : Quiet phase)
    (executed : next.executed = state.executed)
    (ran : ∀ recordId, Ran state.tasks recordId → Ran next.tasks recordId) : next.Claimed := by
  have marked (other : Call) (record : AgentTask)
      (marks : next.phase other = some (.marking record)) :
      state.phase other = some (.marking record) := by
    rw [phases] at marks
    rcases update_eq_some marks with ⟨_, same⟩ | ⟨_, before⟩
    · cases same
      exact quiet.elim
    · exact before
  constructor
  · rw [RunsOnce, executed]
    exact claimed.once
  · intro recordId held
    rw [executed] at held
    exact ran recordId (claimed.ran recordId held)
  · intro other record marks
    have before := claimed.marks other record (marked other record marks)
    exact ⟨ran record.id before.1, executed ▸ before.2⟩
  · intro other third record another marks remarks same
    exact claimed.alone other third record another (marked other record marks)
      (marked third another remarks) same
  · intro other record result closes
    rw [phases] at closes
    rcases update_eq_some closes with ⟨_, same⟩ | ⟨_, before⟩
    · cases same
      exact quiet
    · exact claimed.closed other record result before

theorem not_ran_of_runnable {recordId : String}
    (unrun : (tasks.get recordId).any (·.status.runnable) = true) : ¬ Ran tasks recordId := by
  rintro ⟨stored, found, ended⟩
  rw [found, Option.any_some, ended] at unrun
  cases unrun

/-- A record that has not run is claimed. -/
theorem Claimed.claim (claimed : state.Claimed)
    (unrun : (state.tasks.get record.id).any (·.status.runnable) = true)
    {written marking : AgentTask}
    (phases : next.phase = Function.update state.phase call (some (.marking marking)))
    (tasks : next.tasks = (state.tasks.update now written).1)
    (executed : next.executed = state.executed)
    (same : written.id = record.id ∧ marking.id = record.id)
    (running : written.status.runnable = false) : next.Claimed := by
  have free : ¬ Ran state.tasks marking.id := same.2 ▸ not_ran_of_runnable unrun
  have runs : Ran (state.tasks.update now written).1 marking.id :=
    same.2.trans same.1.symm ▸ ran_updated running
  have later (recordId : String) (ran : Ran state.tasks recordId) : Ran next.tasks recordId :=
    tasks ▸ ran_update running ran
  constructor
  · rw [RunsOnce, executed]
    exact claimed.once
  · intro recordId held
    rw [executed] at held
    exact later recordId (claimed.ran recordId held)
  · intro other another marks
    rw [phases] at marks
    rcases update_eq_some marks with ⟨_, new⟩ | ⟨_, before⟩
    · cases new
      exact ⟨tasks ▸ runs, executed ▸ fun held => free (claimed.ran _ held)⟩
    · have held := claimed.marks other another before
      exact ⟨later _ held.1, executed ▸ held.2⟩
  · intro other third first second marks remarks agree
    rw [phases] at marks remarks
    rcases update_eq_some marks with ⟨isCall, new⟩ | ⟨_, before⟩
    · cases new
      rcases update_eq_some remarks with ⟨isCall', _⟩ | ⟨_, remarked⟩
      · exact isCall.trans isCall'.symm
      · exact absurd (agree ▸ (claimed.marks third second remarked).1) free
    · rcases update_eq_some remarks with ⟨_, new⟩ | ⟨_, remarked⟩
      · cases new
        exact absurd (agree ▸ (claimed.marks other first before).1) free
      · exact claimed.alone other third first second before remarked agree
  · intro other another result closes
    rw [phases] at closes
    rcases update_eq_some closes with ⟨_, new⟩ | ⟨_, before⟩
    · cases new
    · exact claimed.closed other another result before

/-- A claimed record is given to an executor. -/
theorem Claimed.execute (claimed : state.Claimed)
    (marks : state.phase call = some (.marking record))
    (phases : next.phase = Function.update state.phase call (some (.executing record)))
    (executed : next.executed = state.executed ++ [record])
    (tasks : next.tasks = state.tasks) : next.Claimed := by
  have held := claimed.marks call record marks
  have ids : next.executed.map AgentTask.id =
      state.executed.map AgentTask.id ++ [record.id] := by
    rw [executed, List.map_append, List.map_singleton]
  constructor
  · rw [RunsOnce, ids]
    exact List.nodup_append.mpr ⟨claimed.once, List.nodup_singleton _, fun first before second new
      agree => held.2 (List.mem_singleton.mp new ▸ agree ▸ before)⟩
  · intro recordId given
    rw [ids] at given
    rw [tasks]
    rcases List.mem_append.mp given with before | new
    · exact claimed.ran recordId before
    · exact List.mem_singleton.mp new ▸ held.1
  · intro other another remarks
    rw [phases] at remarks
    rcases update_eq_some remarks with ⟨_, new⟩ | ⟨differs, before⟩
    · cases new
    · have kept := claimed.marks other another before
      rw [tasks, ids]
      refine ⟨kept.1, fun given => ?_⟩
      rcases List.mem_append.mp given with executed | new
      · exact kept.2 executed
      · exact differs (claimed.alone other call another record before marks
          (List.mem_singleton.mp new))
  · intro other third first second marks remarks agree
    rw [phases] at marks remarks
    rcases update_eq_some marks with ⟨_, new⟩ | ⟨_, before⟩
    · cases new
    · rcases update_eq_some remarks with ⟨_, new⟩ | ⟨_, remarked⟩
      · cases new
      · exact claimed.alone other third first second before remarked agree
  · intro other another result closes
    rw [phases] at closes
    rcases update_eq_some closes with ⟨_, new⟩ | ⟨_, before⟩
    · cases new
    · exact claimed.closed other another result before

/-- A repository call keeps what is claimed, if it claims nothing that has run. -/
theorem Claimed.advance (claimed : state.Claimed)
    (unrun : state.ClaimsUnrun (.advance call now : RunAction Call Caller))
    (stepped : state.advance call now = some next) : next.Claimed := by
  simp only [AgentRuns.advance] at stepped
  cases stands : state.phase call with
  | none =>
      rw [stands] at stepped
      cases stepped
  | some phase =>
      simp only [ClaimsUnrun, stands] at unrun stepped
      cases moved : phase.advance now state.tasks state.agents with
      | none =>
          rw [moved] at stepped
          cases stepped
      | some moves =>
          rcases moves with ⟨tasks, agents, later⟩
          rw [moved] at stepped
          cases stepped
          have called := RunPhase.advance_sound moved
          cases called with
          | look found runnable =>
              exact claimed.of_quiet rfl trivial (List.append_nil _) fun _ ran => ran
          | scope => exact claimed.of_quiet rfl trivial (List.append_nil _) fun _ ran => ran
          | claim written =>
              subst written
              exact claimed.claim unrun rfl rfl (List.append_nil _) ⟨rfl, rfl⟩ rfl
          | mark marked => exact claimed.execute stands rfl rfl rfl
          | release released ends =>
              rcases ends with rfl | ⟨result, rfl⟩
              · exact claimed.of_quiet rfl trivial (List.append_nil _) fun _ ran => ran
              · exact claimed.of_quiet rfl trivial (List.append_nil _) fun _ ran => ran
          | close same closed =>
              exact claimed.of_quiet rfl closed (List.append_nil _) fun _ => ran_update closed
          | summarize =>
              have ended := claimed.closed call _ _ stands
              exact claimed.of_quiet rfl trivial (List.append_nil _) fun _ => ran_update ended
          | refuse released =>
              exact claimed.of_quiet rfl trivial (List.append_nil _) fun _ ran => ran

variable [DecidableEq Caller] {maxWorkers : Nat}

theorem Claimed.step {action : RunAction Call Caller} (claimed : state.Claimed)
    (unrun : state.ClaimsUnrun action) (stepped : step maxWorkers state action = some next) :
    next.Claimed := by
  cases step_sound stepped with
  | fansOut aside phases other =>
      rcases claimed with ⟨once, ran, marks, alone, closed⟩
      constructor
      · rwa [RunsOnce, aside.executed]
      · rwa [aside.executed, aside.tasks]
      · rwa [phases, aside.executed, aside.tasks]
      · rwa [phases]
      · rwa [phases]
  | begins aside unused phases other =>
      exact claimed.of_quiet phases trivial aside.executed fun _ ran => aside.tasks ▸ ran
  | ends aside stands phases =>
      exact claimed.of_quiet phases trivial aside.executed fun _ ran => aside.tasks ▸ ran
  | advances advanced => exact claimed.advance unrun advanced

/-- In every run in which each call writes RUNNING ended a record that has not run yet, the
plan of each record is executed at most once. -/
theorem runsOnce_of_claimsUnrun (maxWorkers : Nat) (tasks : SnapshotTable AgentTask)
    (agents : AgentRegistry) (actions : List (RunAction Call Caller))
    (final : AgentRuns Call Caller)
    (unrun : StepFunction.Meets (AgentRuns.step maxWorkers) ClaimsUnrun (start tasks agents)
      actions)
    (reached : StepFunction.run (AgentRuns.step maxWorkers) (start tasks agents) actions =
      some final) : final.RunsOnce := by
  have fresh : (start tasks agents : AgentRuns Call Caller).Claimed := by
    constructor
    · exact .nil
    · exact fun _ held => absurd held List.not_mem_nil
    · intro call record marks
      cases marks
    · intro call other record another marks
      cases marks
    · intro call record result closes
      cases closes
  exact (StepFunction.invariant_of_meets
    (fun _ _ _ claimed unrun stepped => claimed.step unrun stepped) fresh unrun reached).once

end Steps

/-! ## Concrete runs -/

/-- An agent and one task of its own. -/
def oneTask : SnapshotTable AgentTask :=
  ((SnapshotTable.empty "agent_tasks").update 0
    { id := "r", taskId := "t", ownerAgent := "a", plan := { id := "p" } }).1

def oneAgent : AgentRegistry :=
  ((SnapshotTable.empty "agent_definitions").update 0 { id := "a", status := .ready }).1

/-- A call of `run_task` for the task, up to its executor. -/
def upToExecutor (call : Nat) : List (RunAction Nat Unit) :=
  [.runTask call "r", .advance call 0, .advance call 0, .advance call 0, .advance call 0]

theorem runsOnce_again : ∃ final : AgentRuns Nat Unit,
    StepFunction.run (step 4) (start oneTask oneAgent) (upToExecutor 0 ++
        [.executorEnds 0 (.raised "ValueError" "plan"), .advance 0 0, .advance 0 0,
          .advance 0 0, .runTask 1 "r", .advance 1 0]) = some final ∧
      final.RunsOnce ∧ final.executed.length = 1 := by
  have unrun : StepFunction.Meets (step 4) ClaimsUnrun
      (start oneTask oneAgent : AgentRuns Nat Unit) (upToExecutor 0 ++
        [.executorEnds 0 (.raised "ValueError" "plan"), .advance 0 0, .advance 0 0,
          .advance 0 0, .runTask 1 "r", .advance 1 0]) := by
    decide
  exact ⟨_, rfl, runsOnce_of_claimsUnrun 4 oneTask oneAgent _ _ unrun rfl, rfl⟩

/-- `run_all(["r", "r"])`: both calls look at the record before one of them claims it. -/
theorem runAll_executes_twice : ¬ ∀ (actions : List (RunAction Nat Unit))
    (final : AgentRuns Nat Unit),
    StepFunction.run (step 4) (start oneTask oneAgent) actions = some final →
      final.RunsOnce := by
  intro all
  have once : ["r", "r"].Nodup := all [.runAll () ["r", "r"], .submit () 0, .submit () 1,
    .advance 0 0, .advance 1 0, .advance 0 0, .advance 1 0, .advance 0 0, .advance 1 0,
    .advance 0 0, .advance 1 0] _ rfl
  exact absurd once (by decide)

end AgentRuns

end Raphael.Agent.Multi
