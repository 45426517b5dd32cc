import Raphael.Agent.Multi.Coordinator
import Raphael.Foundation.Effect

/-! # The agents of a coordination

The outcomes of the subtasks are written under the ids of their agents, one behind the other.
What is reported of an agent is therefore what has become of its last subtask. -/

namespace Raphael.Agent.Multi

open Core
open Foundation
open Persistence
open Agent.Executor

/-! ## The last verdict -/

/-- An agent with a bad subtask has a bad one last among those that were noted. -/
def BadStays (noted given : List (String × Bool)) : Prop :=
  ∀ entry ∈ given, entry.2 = false → Dict.lastValue entry.1 noted = some false

instance (noted given : List (String × Bool)) : Decidable (BadStays noted given) :=
  inferInstanceAs (Decidable (∀ entry ∈ given, entry.2 = false →
    Dict.lastValue entry.1 noted = some false))

/-- Of the agents that were given a subtask, those whose subtasks are all good have succeeded,
and those with a bad one have failed. -/
structure Coordination.Exact (given : List (String × Bool)) (coordination : Coordination) :
    Prop where
  succeeded : ∀ agentId, agentId ∈ coordination.succeeded ↔
    agentId ∈ given.map Prod.fst ∧ ∀ good, (agentId, good) ∈ given → good = true
  failed : ∀ agentId, agentId ∈ coordination.failed ↔ (agentId, false) ∈ given

namespace Coordination

/-- The verdicts are written one behind the other, each beside an execution. -/
structure Notes (noted : List (String × Bool)) (coordination : Coordination) : Prop where
  verified : coordination.verified = Dict.empty.update noted
  results : coordination.results.entries.map Prod.fst =
    coordination.verified.entries.map Prod.fst

variable {noted given : List (String × Bool)} {coordination : Coordination}

theorem Notes.get (notes : coordination.Notes noted) (agentId : String) :
    coordination.verified.get agentId = Dict.lastValue agentId noted := by
  rw [notes.verified, Dict.get_update, Dict.get_empty, Option.or_none]

theorem Notes.mem_succeeded (notes : coordination.Notes noted) {agentId : String} :
    agentId ∈ coordination.succeeded ↔ Dict.lastValue agentId noted = some true := by
  rw [← notes.get, Dict.get_eq_some_iff]
  simp only [succeeded, List.mem_map, List.mem_filter]
  constructor
  · rintro ⟨⟨name, verified⟩, ⟨stored, good⟩, rfl⟩
    cases good
    exact stored
  · exact fun stored => ⟨(agentId, true), ⟨stored, rfl⟩, rfl⟩

theorem Notes.mem_failed (notes : coordination.Notes noted) {agentId : String} :
    agentId ∈ coordination.failed ↔ Dict.lastValue agentId noted = some false := by
  have known : agentId ∈ coordination.results.entries.map Prod.fst ↔
      (Dict.lastValue agentId noted).isSome := by
    rw [notes.results, ← Dict.get_isSome, notes.get]
  rw [failed, List.mem_filter, Bool.not_eq_true', List.contains_eq_mem,
    decide_eq_false_iff_not, notes.mem_succeeded, known]
  cases Dict.lastValue agentId noted with
  | none => simp
  | some good => cases good <;> simp

/-- Where what was not noted is bad, the report is exact if and only if bad stays. -/
theorem Notes.exact_iff (notes : coordination.Notes noted) (inside : noted ⊆ given)
    (outside : ∀ entry ∈ given, entry.2 = true → entry ∈ noted) :
    coordination.Exact given ↔ BadStays noted given := by
  constructor
  · rintro exact ⟨agentId, good⟩ member rfl
    exact notes.mem_failed.mp ((exact.failed agentId).mpr member)
  · intro stays
    refine ⟨fun agentId => ?_, fun agentId => ?_⟩
    · rw [notes.mem_succeeded]
      constructor
      · intro last
        have member := inside (Dict.lastValue_mem last)
        refine ⟨List.mem_map_of_mem member, fun good other => ?_⟩
        cases good with
        | true => rfl
        | false =>
            have bad := stays (agentId, false) other rfl
            cases last.symm.trans bad
      · rintro ⟨member, all⟩
        rcases List.mem_map.mp member with ⟨⟨name, good⟩, stored, rfl⟩
        have isGood : good = true := all good stored
        have found : (Dict.lastValue name noted).isSome :=
          Dict.lastValue_isSome.mpr (List.mem_map_of_mem (outside _ stored isGood))
        rcases Option.isSome_iff_exists.mp found with ⟨last, isLast⟩
        rw [isLast, all last (inside (Dict.lastValue_mem isLast))]
    · rw [notes.mem_failed]
      exact ⟨fun last => inside (Dict.lastValue_mem last),
        fun member => stays (agentId, false) member rfl⟩

theorem Notes.note (notes : coordination.Notes noted) (agentId : String)
    (execution : Option ExecutionResult) (verified : Bool) :
    (coordination.note agentId execution verified).Notes (noted ++ [(agentId, verified)]) where
  verified := by
    simp only [Coordination.note, notes.verified, Dict.update, List.foldl_append]
    rfl
  results := by
    simp only [Coordination.note, Dict.keys_set, notes.results]

end Coordination

/-! ## What is noted -/

/-- The record that a submission has made. -/
theorem Assignment.submit_eq_ok {assignment : Assignment} {record : AgentTask}
    (submitted : assignment.submit = .ok record) :
    record.id = assignment.arrival.recordId ∧ record.taskId = assignment.arrival.taskId ∧
      record.ownerAgent = assignment.spec.agentId := by
  rcases except_bind_eq_ok.mp submitted with ⟨⟨tasks, runtimeTasks, made⟩, done, same⟩
  cases same
  have submits := (Multi.submit_eq_ok done).2
  exact ⟨submits.id, submits.taskId, submits.ownerAgent⟩

theorem Assignment.ids_of_submitted {assignments : List Assignment} {records : List AgentTask}
    (submitted : List.Forall₂ (fun assignment record => assignment.submit = .ok record)
      assignments records) :
    records.map AgentTask.id = assignments.map fun assignment => assignment.arrival.recordId := by
  induction submitted with
  | nil => rfl
  | cons made _ induction =>
      rw [List.map_cons, List.map_cons, induction, (Assignment.submit_eq_ok made).1]

namespace Coordinator

variable {Store : Type} (coordinator : Coordinator Store)

/-- The execution is complete, and the verifier passes its results. -/
def passes (taskId : String) (execution : Option ExecutionResult) : Bool :=
  match coordinator.verifies taskId execution with
  | .ok verified => verified
  | .error _ => false

/-- The agent of a subtask, and whether the subtask has completed and verified. -/
def verdict (execution : String → Option ExecutionResult) (assignment : Assignment) :
    String × Bool :=
  (assignment.spec.agentId,
    coordinator.passes assignment.arrival.taskId (execution assignment.arrival.recordId))

/-- The steps of a chain that are taken: up to the first one that is not completed. -/
def taken (execution : String → Option ExecutionResult) : List Assignment → List Assignment
  | [] => []
  | assignment :: rest =>
      if completes (execution assignment.arrival.recordId) then
        assignment :: taken execution rest
      else [assignment]

/-- What `run_all` has found out about a record. -/
def found (runAll : Except Error (Dict String ExecutionResult)) (recordId : String) :
    Option ExecutionResult :=
  match runAll with
  | .ok executions => executions.get recordId
  | .error _ => none

/-- What `run_task` has found out about a record. -/
def ran (runTask : String → Except Error ExecutionResult) (recordId : String) :
    Option ExecutionResult :=
  (runTask recordId).toOption

/-- The verdicts on the subtasks of a fan-out. -/
def fanOutVerdicts (runAll : List String → Except Error (Dict String ExecutionResult))
    (assignments : List Assignment) : List (String × Bool) :=
  assignments.map (coordinator.verdict
    (found (runAll (assignments.map fun assignment => assignment.arrival.recordId))))

/-- The verdicts on the steps that a chain takes. -/
def takenVerdicts (runTask : String → Except Error ExecutionResult)
    (assignments : List Assignment) : List (String × Bool) :=
  (taken (ran runTask) assignments).map (coordinator.verdict (ran runTask))

/-- The verdicts on all steps of a chain: one that is left out has not completed. -/
def chainVerdicts (runTask : String → Except Error ExecutionResult)
    (assignments : List Assignment) : List (String × Bool) :=
  coordinator.takenVerdicts runTask assignments ++
    (assignments.drop (taken (ran runTask) assignments).length).map fun assignment =>
      (assignment.spec.agentId, false)

variable {coordinator} {supervisorId correlationId : String} {traffic after : Traffic Store}
  {coordination final : Coordination} {assignment : Assignment} {record : AgentTask}

theorem record_of_request (assignment : Assignment) (traffic : Traffic Store)
    (record : AgentTask) (after : Traffic Store)
    (requested : coordinator.request supervisorId correlationId assignment traffic =
      .ok record after) : assignment.submit = .ok record := by
  rcases bind_eq_ok.mp requested with ⟨made, _, submitted, requested⟩
  rcases bind_eq_ok.mp requested with ⟨_, _, _, requested⟩
  rcases bind_eq_ok.mp requested with ⟨_, _, _, requested⟩
  cases requested
  exact (ofExcept_eq_ok submitted).1

theorem passes_of_verifies {taskId : String} {execution : Option ExecutionResult}
    {verified : Bool} (verifies : coordinator.verifies taskId execution = .ok verified) :
    coordinator.passes taskId execution = verified := by
  rw [passes, verifies]

variable (coordinator) in
/-- The subtasks are noted one behind the other. -/
def noteAll (execution : String → Option ExecutionResult) :
    Coordination → List Assignment → Coordination :=
  List.foldl fun coordination assignment => coordination.note assignment.spec.agentId
    (execution assignment.arrival.recordId) (coordinator.verdict execution assignment).2

theorem notes_noteAll {execution : String → Option ExecutionResult}
    {noted : List (String × Bool)} (notes : coordination.Notes noted)
    (assignments : List Assignment) :
    (coordinator.noteAll execution coordination assignments).Notes
      (noted ++ assignments.map (coordinator.verdict execution)) := by
  induction assignments generalizing coordination noted with
  | nil =>
      rw [List.map_nil, List.append_nil]
      exact notes
  | cons assignment rest induction =>
      rw [List.map_cons, List.append_cons]
      exact induction (notes.note assignment.spec.agentId _ _)

/-- A record of the fan-in is noted with the verdict on it. -/
theorem fanIn_eq_ok {executions : Dict String ExecutionResult}
    (submitted : assignment.submit = .ok record)
    (returns : coordinator.fanIn supervisorId correlationId executions coordination
      (record, assignment) traffic = .ok final after) :
    final = coordinator.noteAll executions.get coordination [assignment] := by
  rcases assignment.submit_eq_ok submitted with ⟨id, taskId, owner⟩
  rcases bind_eq_ok.mp returns with ⟨_, _, _, returns⟩
  rcases bind_eq_ok.mp returns with ⟨_, _, _, returns⟩
  rcases bind_eq_ok.mp returns with ⟨verified, _, verifies, returns⟩
  cases returns
  have passes := passes_of_verifies (ofExcept_eq_ok verifies).1
  rw [id, taskId] at passes
  simp only [noteAll, List.foldl_cons, List.foldl_nil, verdict, id, owner, passes]

/-- The fan-in notes all subtasks. -/
theorem foldlM_fanIn {executions : Dict String ExecutionResult} {assignments : List Assignment}
    {records : List AgentTask}
    (submitted : List.Forall₂ (fun assignment record => assignment.submit = .ok record)
      assignments records)
    (returns : (records.zip assignments).foldlM
      (coordinator.fanIn supervisorId correlationId executions) coordination traffic =
        .ok final after) :
    final = coordinator.noteAll executions.get coordination assignments := by
  induction submitted generalizing coordination traffic with
  | nil =>
      cases returns
      rfl
  | cons made _ induction =>
      rw [List.zip_cons_cons, List.foldlM_cons] at returns
      rcases bind_eq_ok.mp returns with ⟨next, between, noted, returns⟩
      cases fanIn_eq_ok made noted
      exact induction returns

/-- A fan-out notes all subtasks. -/
theorem fanOut_eq_ok {assignments : List Assignment}
    {runAll : List String → Except Error (Dict String ExecutionResult)} {timedOut : Bool}
    (returns : coordinator.fanOut supervisorId assignments correlationId runAll timedOut
      traffic = .ok final after) :
    final = coordinator.noteAll
      (found (runAll (assignments.map fun assignment => assignment.arrival.recordId)))
      { correlationId } assignments := by
  unfold fanOut at returns
  rcases bind_eq_ok.mp returns with ⟨_, _, _, returns⟩
  rcases bind_eq_ok.mp returns with ⟨records, _, requested, returns⟩
  rcases bind_eq_ok.mp returns with ⟨executions, _, ran, returns⟩
  rcases bind_eq_ok.mp returns with ⟨coordination, _, gathered, returns⟩
  have submitted : List.Forall₂ (fun assignment record => assignment.submit = .ok record)
      assignments records :=
    mapM_eq_ok record_of_request requested
  have same : final = coordination := by
    split at returns
    · rcases bind_eq_ok.mp returns with ⟨_, _, _, returns⟩
      cases returns
      rfl
    · cases returns
      rfl
  rw [same, ← Assignment.ids_of_submitted submitted, (ofExcept_eq_ok ran).1]
  exact foldlM_fanIn submitted gathered

/-- A chain notes the subtasks that it takes. -/
theorem chainLoop_eq_ok {assignments : List Assignment}
    {runTask : String → Except Error ExecutionResult} {previousSummary : String}
    (returns : coordinator.chainLoop supervisorId correlationId runTask assignments coordination
      previousSummary traffic = .ok final after) :
    final = coordinator.noteAll (ran runTask) coordination (taken (ran runTask) assignments) := by
  induction assignments generalizing coordination previousSummary traffic with
  | nil =>
      cases returns
      rfl
  | cons assignment rest induction =>
      unfold chainLoop at returns
      rcases bind_eq_ok.mp returns with ⟨record, _, submitted, returns⟩
      have handed : ∃ between, (do
          let execution ← MonadExcept.ofExcept (runTask record.id)
          let verified ← MonadExcept.ofExcept
            (coordinator.verifies record.taskId (some execution))
          let coordination :=
            coordination.note assignment.spec.agentId (some execution) verified
          if completes (some execution) then
            chainLoop coordinator supervisorId correlationId runTask rest coordination
              (assignment.spec.agentId ++ ": " ++ toString execution.succeeded.length ++
                " steps succeeded")
          else return coordination : EStateM Error (Traffic Store) Coordination) between =
            .ok final after := by
        split at returns
        · rcases bind_eq_ok.mp returns with ⟨_, between, _, returns⟩
          exact ⟨between, returns⟩
        · exact ⟨_, returns⟩
      rcases handed with ⟨between, returns⟩
      rcases bind_eq_ok.mp returns with ⟨execution, _, runs, returns⟩
      rcases bind_eq_ok.mp returns with ⟨verified, _, verifies, returns⟩
      rcases assignment.submit_eq_ok (ofExcept_eq_ok submitted).1 with ⟨id, taskId, _⟩
      have found : ran runTask assignment.arrival.recordId = some execution := by
        rw [← id, ran, (ofExcept_eq_ok runs).1]
        rfl
      have passes := passes_of_verifies (ofExcept_eq_ok verifies).1
      rw [taskId, ← found] at passes
      have noted : coordination.note assignment.spec.agentId (some execution) verified =
          coordinator.noteAll (ran runTask) coordination [assignment] := by
        rw [← passes, ← found]
        rfl
      rw [taken, found]
      split at returns
      · next completed =>
          rw [if_pos completed, induction returns, noted]
          rfl
      · next uncompleted =>
          cases returns
          rw [if_neg uncompleted, noted]

theorem notes_empty : ({ correlationId } : Coordination).Notes [] := ⟨rfl, rfl⟩

/-- The report of a fan-out is exact if and only if an agent with a bad subtask has a bad one
last. Of a chain, the same holds for the steps that it takes; with those that it leaves out,
their agents must have a bad one last among those that it takes. -/
theorem exact_iff_badStays (coordinator : Coordinator Store) (supervisorId correlationId : String)
    (assignments : List Assignment) (traffic after : Traffic Store)
    (coordination : Coordination) :
    (∀ runAll timedOut, coordinator.fanOut supervisorId assignments correlationId runAll timedOut
        traffic = .ok coordination after →
      (coordination.Exact (coordinator.fanOutVerdicts runAll assignments) ↔
        BadStays (coordinator.fanOutVerdicts runAll assignments)
          (coordinator.fanOutVerdicts runAll assignments))) ∧
    ∀ runTask, coordinator.chain supervisorId assignments correlationId runTask traffic =
        .ok coordination after →
      (coordination.Exact (coordinator.takenVerdicts runTask assignments) ↔
        BadStays (coordinator.takenVerdicts runTask assignments)
          (coordinator.takenVerdicts runTask assignments)) ∧
      (coordination.Exact (coordinator.chainVerdicts runTask assignments) ↔
        BadStays (coordinator.takenVerdicts runTask assignments)
          (coordinator.chainVerdicts runTask assignments)) := by
  constructor
  · intro runAll timedOut returns
    have notes : coordination.Notes (coordinator.fanOutVerdicts runAll assignments) := by
      rw [fanOut_eq_ok returns]
      exact notes_noteAll notes_empty assignments
    exact notes.exact_iff (List.Subset.refl _) fun _ member _ => member
  · intro runTask returns
    have notes : coordination.Notes (coordinator.takenVerdicts runTask assignments) := by
      rcases bind_eq_ok.mp returns with ⟨_, _, _, returns⟩
      rw [chainLoop_eq_ok returns]
      exact notes_noteAll notes_empty _
    refine ⟨notes.exact_iff (List.Subset.refl _) fun _ member _ => member, ?_⟩
    refine notes.exact_iff (List.subset_append_left _ _) fun entry member good => ?_
    rcases List.mem_append.mp member with taken | left
    · exact taken
    · rcases List.mem_map.mp left with ⟨assignment, _, rfl⟩
      cases good

/-! ## Concrete runs -/

/-- A coordinator with a verifier that fails the task it is told to. -/
def reviewing (badTask : String) : Coordinator Unit where
  externals := { size := fun _ => .ok 0, create := fun _ message store => (message, .ok store) }
  verifier := some fun taskId _ => .ok (if taskId = badTask then .failed else .passed)

/-- The agents are joined to the bus. -/
def joined : Traffic Unit where
  messages := { registered := {"a", "b"} }

/-- The subtask of an agent, with ids of its own. -/
def assigned (agentId name : String) : Assignment where
  spec := { agentId, goal := name, plan := { id := name } }
  agents := ((SnapshotTable.empty "agent_definitions").update 0
    { id := agentId, status := .ready }).1
  arrival := { taskId := "t" ++ name, recordId := "r" ++ name }
  request := { id := "q" ++ name }
  answer := { id := "m" ++ name }

/-- What `run_all` ends with where the records of a list have failed. -/
def failing (bad recordIds : List String) : Except Error (Dict String ExecutionResult) :=
  .ok (Dict.empty.update (recordIds.map fun recordId =>
    (recordId, { status := if recordId ∈ bad then .failed else .completed })))

theorem exact_of_badLast : ∃ fannedOut chained after later,
    (reviewing "t").fanOut "s" [assigned "a" "1", assigned "b" "2", assigned "a" "3"] "c"
        (failing ["r3"]) false joined = .ok fannedOut after ∧
      fannedOut.Exact [("a", true), ("b", true), ("a", false)] ∧
    (reviewing "t1").chain "s" [assigned "a" "1", assigned "b" "2", assigned "a" "3",
        assigned "a" "4"] "c" (fun recordId => .ok { status :=
          if recordId = "r3" then .failed else .completed }) joined = .ok chained later ∧
      chained.Exact [("a", false), ("b", true), ("a", false), ("a", false)] := by
  have toldOut : returnsWith (fun _ _ => true) ((reviewing "t").fanOut "s"
      [assigned "a" "1", assigned "b" "2", assigned "a" "3"] "c" (failing ["r3"]) false)
      joined = true := by decide +kernel
  have toldChain : returnsWith (fun _ _ => true) ((reviewing "t1").chain "s"
      [assigned "a" "1", assigned "b" "2", assigned "a" "3", assigned "a" "4"] "c"
      fun recordId => .ok { status := if recordId = "r3" then .failed else .completed })
      joined = true := by decide +kernel
  rcases eq_ok_of_returnsWith toldOut with ⟨fannedOut, after, fansOut, _⟩
  rcases eq_ok_of_returnsWith toldChain with ⟨chained, later, chains, _⟩
  refine ⟨fannedOut, chained, after, later, fansOut, ?_, chains, ?_⟩
  · exact ((exact_iff_badStays (reviewing "t") "s" "c" _ joined after fannedOut).1 _ _
      fansOut).mpr (by decide)
  · exact ((exact_iff_badStays (reviewing "t1") "s" "c" _ joined later chained).2 _
      chains).2.mpr (by decide)

/-- The first subtask of the agent has failed, its second one has completed. -/
theorem last_verdict_wins : ¬ ∀ (coordinator : Coordinator Unit) (supervisorId : String)
    (assignments : List Assignment) (correlationId : String)
    (runAll : List String → Except Error (Dict String ExecutionResult)) (timedOut : Bool)
    (traffic after : Traffic Unit) (coordination : Coordination),
    coordinator.fanOut supervisorId assignments correlationId runAll timedOut traffic =
        .ok coordination after →
      coordination.Exact (coordinator.fanOutVerdicts runAll assignments) := by
  intro all
  have told : returnsWith (fun _ _ => true) ((reviewing "t").fanOut "s"
      [assigned "a" "1", assigned "a" "2"] "c" (failing ["r1"]) false) joined = true := by
    decide +kernel
  rcases eq_ok_of_returnsWith told with ⟨coordination, after, fansOut, _⟩
  have exact := all _ _ _ _ _ _ _ _ _ fansOut
  rw [fanOut_eq_ok fansOut] at exact
  exact absurd ((exact.failed "a").mpr (by decide)) (by decide)

end Coordinator

end Raphael.Agent.Multi
