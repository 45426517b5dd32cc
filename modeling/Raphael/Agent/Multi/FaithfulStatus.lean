import Raphael.Agent.Multi.AgentRuns
import Raphael.Foundation.SlotTable

/-! # The status of an agent

The status is one field, which every call writes when its executor begins and when it ends. It
tells of the executors of the agent as long as no call ends while another one's is running. -/

namespace Raphael.Agent.Multi

open Foundation
open Persistence
open Agent.Executor

namespace AgentRegistry

/-- The stored status of an agent. -/
def statusOf (agents : AgentRegistry) (agentId : String) : Option AgentStatus :=
  (agents.get agentId).map AgentDefinition.status

/-- Setting a status writes it for one agent. -/
theorem statusOf_setStatus {agents after : AgentRegistry} {now : Int} {agentId : String}
    {status : AgentStatus} (written : agents.setStatus now agentId status = some after)
    (other : String) :
    after.statusOf other = if other = agentId then some status else agents.statusOf other := by
  rcases Option.map_eq_some_iff.mp written with ⟨definition, found, rfl⟩
  have same : definition.id = agentId := SnapshotTable.id_of_get found
  simp only [statusOf, SnapshotTable.get_update]
  change Option.map _ (if other = definition.id then _ else _) = _
  rw [same]
  split <;> rfl

/-- An agent with a status is found. -/
theorem setStatus_isSome {agents : AgentRegistry} {now : Int} {agentId : String}
    {status stored : AgentStatus} (found : agents.statusOf agentId = some stored) :
    ∃ after, agents.setStatus now agentId status = some after := by
  rcases Option.map_eq_some_iff.mp found with ⟨definition, held, _⟩
  exact ⟨_, by rw [setStatus, held]; rfl⟩

end AgentRegistry

namespace AgentRuns

variable {Call : Type u} {Caller : Type v}

/-- No call stands between its two writes of the status of the agent. -/
def Unoccupied (state : AgentRuns Call Caller) (agentId : String) : Prop :=
  ∀ call phase, state.phase call = some phase → ¬ phase.occupies agentId

/-- The agent was READY at first, or an executor of the agent has begun. -/
def Concerns (first : AgentRegistry) (state : AgentRuns Call Caller) (agentId : String) : Prop :=
  first.statusOf agentId = some .ready ∨
    ∃ record ∈ state.executed, record.ownerAgent = agentId

/-- While an executor of an agent is running, the agent is RUNNING; when every call has
released the agent, which it does before it returns, the agent is READY. -/
structure Faithful (first : AgentRegistry) (state : AgentRuns Call Caller) : Prop where
  running : ∀ call phase agentId, state.phase call = some phase → phase.executes agentId →
    state.agents.statusOf agentId = some .running
  ready : ∀ agentId, state.Concerns first agentId → state.Unoccupied agentId →
    state.agents.statusOf agentId = some .ready

/-- A call that releases an agent does so when no other executor of the agent is running. -/
def ReleasesIdle (state : AgentRuns Call Caller) : RunAction Call Caller → Prop
  | .advance call _ => ∀ record result, state.phase call = some (.releasing record result) →
      ∀ other phase, other ≠ call → state.phase other = some phase →
        ¬ phase.executes record.ownerAgent
  | _ => True

/-- An agent that the calls are about is stored, and READY while no call occupies it. -/
structure Tracked (first : AgentRegistry) (state : AgentRuns Call Caller) : Prop where
  begun : ∀ call phase agentId, state.phase call = some phase → phase.occupies agentId →
    state.Concerns first agentId
  stored : ∀ agentId, state.Concerns first agentId →
    ∃ status, state.agents.statusOf agentId = some status
  ready : ∀ agentId, state.Concerns first agentId → state.Unoccupied agentId →
    state.agents.statusOf agentId = some .ready

variable {first : AgentRegistry} {state next : AgentRuns Call Caller} {call : Call}
  {phase : RunPhase}

/-- Only an advance can release an agent. -/
theorem releasesIdle_of_ne {action : RunAction Call Caller}
    (other : ∀ call now, action ≠ .advance call now) : state.ReleasesIdle action := by
  cases action with
  | advance call now => exact absurd rfl (other call now)
  | _ => trivial

section Steps

variable [DecidableEq Call]

/-- A step that leaves the agents, and occupies what it occupied before, keeps both. -/
theorem faithful_aside (tracked : state.Tracked first) (faithful : state.Faithful first)
    (agents : next.agents = state.agents) (executed : next.executed = state.executed)
    (phases : next.phase = Function.update state.phase call (some phase))
    (occupies : ∀ agentId, phase.occupies agentId ↔
      ∃ before, state.phase call = some before ∧ before.occupies agentId)
    (idle : ∀ agentId, ¬ phase.executes agentId) :
    next.Tracked first ∧ next.Faithful first := by
  have concerns (agentId : String) :
      next.Concerns first agentId ↔ state.Concerns first agentId := by
    rw [Concerns, Concerns, executed]
  have occupied (agentId : String) : next.Unoccupied agentId → state.Unoccupied agentId := by
    intro free other before stands holds
    by_cases same : other = call
    · subst same
      exact free other phase (by rw [phases, Function.update_self])
        ((occupies agentId).mpr ⟨before, stands, holds⟩)
    · exact free other before (by rw [phases, Function.update_of_ne same]; exact stands) holds
  have ready (agentId : String) (concerned : next.Concerns first agentId)
      (free : next.Unoccupied agentId) : next.agents.statusOf agentId = some .ready := by
    rw [agents]
    exact tracked.ready agentId ((concerns agentId).mp concerned) (occupied agentId free)
  refine ⟨⟨?_, ?_, ready⟩, ?_, ready⟩
  · intro other later agentId stands holds
    rw [phases] at stands
    rcases update_eq_some stands with ⟨_, same⟩ | ⟨_, before⟩
    · cases same
      rcases (occupies agentId).mp holds with ⟨before, stood, held⟩
      exact (concerns agentId).mpr (tracked.begun call before agentId stood held)
    · exact (concerns agentId).mpr (tracked.begun other later agentId before holds)
  · intro agentId concerned
    rw [agents]
    exact tracked.stored agentId ((concerns agentId).mp concerned)
  · intro other later agentId stands executes
    rw [phases] at stands
    rw [agents]
    rcases update_eq_some stands with ⟨_, same⟩ | ⟨_, before⟩
    · cases same
      exact absurd executes (idle agentId)
    · exact faithful.running other later agentId before executes

/-- The executor of an agent begins. -/
theorem faithful_mark (tracked : state.Tracked first) (faithful : state.Faithful first)
    {record : AgentTask} {now : Int}
    (marks : state.phase call = some (.marking record))
    (agents : state.agents.setStatus now record.ownerAgent .running = some next.agents)
    (executed : next.executed = state.executed ++ [record])
    (phases : next.phase = Function.update state.phase call (some (.executing record))) :
    next.Tracked first ∧ next.Faithful first := by
  have status := AgentRegistry.statusOf_setStatus agents
  have own : next.Concerns first record.ownerAgent :=
    .inr ⟨record, by simp [executed], rfl⟩
  have later (agentId : String) (concerned : state.Concerns first agentId) :
      next.Concerns first agentId := by
    rcases concerned with atFirst | ⟨held, ran, owner⟩
    · exact .inl atFirst
    · exact .inr ⟨held, by simp [executed, ran], owner⟩
  have before (agentId : String) (other : agentId ≠ record.ownerAgent)
      (concerned : next.Concerns first agentId) : state.Concerns first agentId := by
    rcases concerned with atFirst | ⟨held, ran, owner⟩
    · exact .inl atFirst
    · rw [executed] at ran
      rcases List.mem_append.mp ran with earlier | new
      · exact .inr ⟨held, earlier, owner⟩
      · cases List.mem_singleton.mp new
        exact absurd owner.symm other
  have ready (agentId : String) (concerned : next.Concerns first agentId)
      (free : next.Unoccupied agentId) : next.agents.statusOf agentId = some .ready := by
    by_cases same : agentId = record.ownerAgent
    · have occupied : (RunPhase.executing record).occupies agentId := same.symm
      exact absurd occupied (free call _ (by rw [phases, Function.update_self]))
    · rw [status, if_neg same]
      refine tracked.ready agentId (before agentId same concerned) fun other held stands holds => ?_
      by_cases isCall : other = call
      · subst isCall
        cases marks.symm.trans stands
        exact holds
      · exact free other held (by rw [phases, Function.update_of_ne isCall]; exact stands) holds
  refine ⟨⟨?_, ?_, ready⟩, ?_, ready⟩
  · intro other held agentId stands holds
    rw [phases] at stands
    rcases update_eq_some stands with ⟨_, same⟩ | ⟨_, stood⟩
    · cases same
      cases holds
      exact own
    · exact later agentId (tracked.begun other held agentId stood holds)
  · intro agentId concerned
    by_cases same : agentId = record.ownerAgent
    · exact ⟨_, by rw [status, if_pos same]⟩
    · rw [status, if_neg same]
      exact tracked.stored agentId (before agentId same concerned)
  · intro other held agentId stands executes
    rw [phases] at stands
    rw [status]
    split
    · rfl
    · next differs =>
        rcases update_eq_some stands with ⟨_, same⟩ | ⟨_, stood⟩
        · cases same
          exact absurd executes.symm differs
        · exact faithful.running other held agentId stood executes

/-- A call releases its agent: the status stays faithful exactly when no other executor of the
agent is running. -/
theorem faithful_release (tracked : state.Tracked first) (faithful : state.Faithful first)
    {record : AgentTask} {result : Option ExecutionResult} {now : Int}
    (releases : state.phase call = some (.releasing record result))
    (agents : state.agents.setStatus now record.ownerAgent .ready = some next.agents)
    (executed : next.executed = state.executed)
    (phases : next.phase = Function.update state.phase call (some phase))
    (released : ∀ agentId, ¬ phase.occupies agentId)
    (idle : ∀ agentId, ¬ phase.executes agentId) :
    next.Tracked first ∧ (next.Faithful first ↔
      ∀ other held, other ≠ call → state.phase other = some held →
        ¬ held.executes record.ownerAgent) := by
  have status := AgentRegistry.statusOf_setStatus agents
  have concerns (agentId : String) :
      next.Concerns first agentId ↔ state.Concerns first agentId := by
    rw [Concerns, Concerns, executed]
  have ready (agentId : String) (concerned : next.Concerns first agentId)
      (free : next.Unoccupied agentId) : next.agents.statusOf agentId = some .ready := by
    rw [status]
    split
    · rfl
    · next differs =>
        refine tracked.ready agentId ((concerns agentId).mp concerned)
          fun other held stands holds => ?_
        by_cases isCall : other = call
        · subst isCall
          cases releases.symm.trans stands
          exact differs holds.symm
        · exact free other held (by rw [phases, Function.update_of_ne isCall]; exact stands) holds
  refine ⟨⟨?_, ?_, ready⟩, ?_, ?_⟩
  · intro other held agentId stands holds
    rw [phases] at stands
    rcases update_eq_some stands with ⟨_, same⟩ | ⟨_, stood⟩
    · cases same
      exact absurd holds (released agentId)
    · exact (concerns agentId).mpr (tracked.begun other held agentId stood holds)
  · intro agentId concerned
    rw [status]
    split
    · exact ⟨_, rfl⟩
    · exact tracked.stored agentId ((concerns agentId).mp concerned)
  · intro after other held differs stands executes
    have running := after.running other held record.ownerAgent
      (by rw [phases, Function.update_of_ne differs]; exact stands) executes
    rw [status, if_pos rfl] at running
    cases running
  · intro alone
    refine ⟨fun other held agentId stands executes => ?_, ready⟩
    rw [phases] at stands
    rcases update_eq_some stands with ⟨_, same⟩ | ⟨differs, stood⟩
    · cases same
      exact absurd executes (idle agentId)
    · have another : agentId ≠ record.ownerAgent := by
        rintro rfl
        exact alone other held differs stood executes
      rw [status, if_neg another]
      exact faithful.running other held agentId stood executes

/-- A repository call keeps the status faithful exactly when it does not release an agent
whose executor is running. -/
theorem faithful_advance {now : Int} (tracked : state.Tracked first)
    (faithful : state.Faithful first) (stepped : state.advance call now = some next) :
    next.Tracked first ∧ (next.Faithful first ↔
      state.ReleasesIdle (.advance call now : RunAction Call Caller)) := by
  simp only [AgentRuns.advance] at stepped
  cases stands : state.phase call with
  | none =>
      rw [stands] at stepped
      cases stepped
  | some phase =>
      simp only [stands] at stepped
      cases moved : phase.advance now state.tasks state.agents with
      | none =>
          rw [moved] at stepped
          cases stepped
      | some moves =>
          rcases moves with ⟨tasks, agents, later⟩
          rw [moved] at stepped
          cases stepped
          have aside {after : AgentRuns Call Caller}
              (kept : after.Tracked first ∧ after.Faithful first)
              (stays : ∀ record result, phase ≠ .releasing record result) :
              after.Tracked first ∧ (after.Faithful first ↔
                state.ReleasesIdle (.advance call now : RunAction Call Caller)) :=
            ⟨kept.1, iff_of_true kept.2 fun record result releases =>
              absurd (Option.some.inj (stands.symm.trans releases)) (stays record result)⟩
          have outside {after : AgentRuns Call Caller} {entered : RunPhase}
              (agents : after.agents = state.agents)
              (executed : after.executed = state.executed)
              (phases : after.phase = Function.update state.phase call (some entered))
              (free : ∀ agentId, ¬ entered.occupies agentId)
              (was : ∀ agentId, ¬ phase.occupies agentId)
              (idle : ∀ agentId, ¬ entered.executes agentId) :
              after.Tracked first ∧ (after.Faithful first ↔
                state.ReleasesIdle (.advance call now : RunAction Call Caller)) := by
            refine aside (faithful_aside tracked faithful agents executed phases
              (fun agentId => iff_of_false (free agentId) ?_) idle) ?_
            · rintro ⟨before, stood, holds⟩
              cases stands.symm.trans stood
              exact was agentId holds
            · rintro record result rfl
              exact was record.ownerAgent rfl
          have called := RunPhase.advance_sound moved
          cases called with
          | look found runnable =>
              exact outside rfl (List.append_nil _) rfl (fun _ => id) (fun _ => id) fun _ => id
          | scope =>
              exact outside rfl (List.append_nil _) rfl (fun _ => id) (fun _ => id) fun _ => id
          | claim written =>
              exact outside rfl (List.append_nil _) rfl (fun _ => id) (fun _ => id) fun _ => id
          | mark marked =>
              refine aside (faithful_mark tracked faithful stands marked rfl rfl)
                fun _ _ same => ?_
              cases same
          | release released ends =>
              have faithfully {after : AgentRuns Call Caller} {ended : RunPhase}
                  (agents : some agents = some after.agents)
                  (executed : after.executed = state.executed)
                  (phases : after.phase = Function.update state.phase call (some ended))
                  (free : ∀ agentId, ¬ ended.occupies agentId)
                  (idle : ∀ agentId, ¬ ended.executes agentId) :
                  after.Tracked first ∧ (after.Faithful first ↔
                    state.ReleasesIdle (.advance call now : RunAction Call Caller)) := by
                have kept := faithful_release tracked faithful stands (released.trans agents)
                  executed phases free idle
                refine ⟨kept.1, kept.2.trans ⟨fun alone record result releases => ?_,
                  fun alone => alone _ _ stands⟩⟩
                cases stands.symm.trans releases
                exact alone
              rcases ends with rfl | ⟨result, rfl⟩
              · exact faithfully rfl (List.append_nil _) rfl (fun _ => id) fun _ => id
              · exact faithfully rfl (List.append_nil _) rfl (fun _ => id) fun _ => id
          | close same closed =>
              exact outside rfl (List.append_nil _) rfl (fun _ => id) (fun _ => id) fun _ => id
          | summarize =>
              exact outside rfl (List.append_nil _) rfl (fun _ => id) (fun _ => id) fun _ => id
          | refuse missing =>
              refine outside rfl (List.append_nil _) rfl (fun _ => id) (fun agentId owns => ?_)
                fun _ => id
              rcases tracked.stored agentId (tracked.begun call phase agentId stands owns) with
                ⟨status, found⟩
              rcases AgentRegistry.setStatus_isSome found with ⟨after, written⟩
              cases (missing agentId owns).symm.trans written

/-- A call that begins occupies nothing. -/
theorem faithful_begin (tracked : state.Tracked first) (faithful : state.Faithful first)
    (unused : state.phase call = none) (agents : next.agents = state.agents)
    (executed : next.executed = state.executed) {recordId : String}
    (phases : next.phase = Function.update state.phase call (some (.looking recordId))) :
    next.Tracked first ∧ next.Faithful first := by
  refine faithful_aside tracked faithful agents executed phases
    (fun agentId => iff_of_false id ?_) fun _ => id
  rintro ⟨before, stood, _⟩
  cases unused.symm.trans stood

variable [DecidableEq Caller] {maxWorkers : Nat}

theorem faithful_step {action : RunAction Call Caller} (tracked : state.Tracked first)
    (faithful : state.Faithful first) (stepped : step maxWorkers state action = some next) :
    next.Tracked first ∧ (next.Faithful first ↔ state.ReleasesIdle action) := by
  cases step_sound stepped with
  | fansOut aside phases other =>
      have concerns (agentId : String) :
          next.Concerns first agentId ↔ state.Concerns first agentId := by
        rw [Concerns, Concerns, aside.executed]
      have ready (agentId : String) (concerned : next.Concerns first agentId)
          (free : next.Unoccupied agentId) : next.agents.statusOf agentId = some .ready := by
        rw [aside.agents]
        exact tracked.ready agentId ((concerns agentId).mp concerned)
          (by rwa [Unoccupied, ← phases])
      refine ⟨⟨?_, ?_, ready⟩, iff_of_true ⟨?_, ready⟩ (releasesIdle_of_ne other)⟩
      · intro call phase agentId stands owns
        rw [phases] at stands
        exact (concerns agentId).mpr (tracked.begun call phase agentId stands owns)
      · intro agentId concerned
        rw [aside.agents]
        exact tracked.stored agentId ((concerns agentId).mp concerned)
      · rw [phases, aside.agents]
        exact faithful.running
  | begins aside unused phases other =>
      have kept := faithful_begin tracked faithful unused aside.agents aside.executed phases
      exact ⟨kept.1, iff_of_true kept.2 (releasesIdle_of_ne other)⟩
  | ends aside stands phases =>
      have kept : next.Tracked first ∧ next.Faithful first := by
        refine faithful_aside tracked faithful aside.agents aside.executed phases
          (fun agentId => ⟨fun owns => ⟨_, stands, owns⟩, ?_⟩) fun _ => id
        rintro ⟨before, stood, owns⟩
        cases stands.symm.trans stood
        exact owns
      exact ⟨kept.1, iff_of_true kept.2 trivial⟩
  | advances advanced => exact faithful_advance tracked faithful advanced

/-- The status of every agent is faithful in every state of a run exactly when no call
releases its agent while another executor of the agent is running. -/
theorem faithful_throughout_iff (maxWorkers : Nat) (tasks : SnapshotTable AgentTask)
    (agents : AgentRegistry) (actions : List (RunAction Call Caller)) :
    StepFunction.Throughout (AgentRuns.step maxWorkers) (Faithful agents) (start tasks agents)
        actions ↔
      StepFunction.Meets (AgentRuns.step maxWorkers) ReleasesIdle (start tasks agents)
        actions := by
  have concerned (agentId : String)
      (concerned : (start tasks agents : AgentRuns Call Caller).Concerns agents agentId) :
      agents.statusOf agentId = some .ready := by
    rcases concerned with ready | ⟨_, ran, _⟩
    · exact ready
    · cases ran
  apply StepFunction.throughout_iff_meets
    (fun state label next tracked faithful stepped => faithful_step tracked faithful stepped)
  · intro state action disabled
    cases action with
    | advance call now =>
        intro record result releases
        simp only [AgentRuns.step, AgentRuns.advance, releases, RunPhase.advance] at disabled
        cases written : state.agents.setStatus now record.ownerAgent .ready with
        | none =>
            rw [written] at disabled
            cases disabled
        | some released =>
            rw [written] at disabled
            cases result <;> cases disabled
    | _ => trivial
  · refine ⟨fun _ _ _ stands => ?_, fun agentId held => ⟨_, concerned agentId held⟩,
      fun agentId held _ => concerned agentId held⟩
    cases stands
  · refine ⟨fun _ _ _ stands => ?_, fun agentId held _ => concerned agentId held⟩
    cases stands

end Steps

/-! ## A concrete run -/

/-- An agent with two tasks. -/
def twoTasks : SnapshotTable AgentTask :=
  ((((SnapshotTable.empty "agent_tasks").update 0
    { id := "r", taskId := "t", ownerAgent := "a", plan := { id := "p" } }).1).update 0
    { id := "s", taskId := "u", ownerAgent := "a", plan := { id := "q" } }).1

def readyAgent : AgentRegistry :=
  ((SnapshotTable.empty "agent_definitions").update 0 { id := "a", status := .ready }).1

/-- The executor of `r` ends while that of `s` is running. -/
theorem ready_while_executing : ¬ ∀ actions : List (RunAction Nat Unit),
    StepFunction.Throughout (step 4) (Faithful readyAgent) (start twoTasks readyAgent)
      actions := by
  intro all
  have faithful := all [.runTask 0 "r", .runTask 1 "s", .advance 0 0, .advance 0 0,
    .advance 0 0, .advance 0 0, .advance 1 0, .advance 1 0, .advance 1 0, .advance 1 0,
    .executorEnds 0 (.result { status := .completed }), .advance 0 0] _ _ List.prefix_rfl rfl
  have running : some AgentStatus.ready = some AgentStatus.running :=
    faithful.running 1 _ "a" rfl rfl
  cases running

end AgentRuns

end Raphael.Agent.Multi
