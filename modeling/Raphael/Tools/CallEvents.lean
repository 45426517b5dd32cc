import Raphael.Tools.ToolRunner

/-! # The events of a call

In which orders `ToolRunner.run` publishes the events of a call. A request that is followed
by nothing but a failure is one of a call whose arguments are refused. -/

namespace Raphael.Tools

open Core Security

/-- A call has published events of these kinds, each under its own id. -/
structure Published (kinds : List EventType) (before after : RunState) : Prop where
  taskId : after.call.taskId = before.call.taskId
  id : after.call.id = before.call.id
  events : ∃ events, after.events = before.events ++ events ∧
    events.map (·.eventType) = kinds ∧
    ∀ event ∈ events, event.taskId = before.call.taskId ∧
      Json.lookup "call_id" event.payload = some (.str before.call.id)

namespace Published

variable {kinds more : List EventType} {before middle after : RunState}

theorem of_same (taskId : after.call.taskId = before.call.taskId)
    (id : after.call.id = before.call.id) (events : after.events = before.events) :
    Published [] before after :=
  ⟨taskId, id, [], events.trans (List.append_nil _).symm, rfl, by simp⟩

theorem trans (front : Published kinds before middle) (back : Published more middle after) :
    Published (kinds ++ more) before after := by
  rcases front.events with ⟨events, grown, named, own⟩
  rcases back.events with ⟨later, grows, names, owns⟩
  refine ⟨back.taskId.trans front.taskId, back.id.trans front.id, events ++ later, ?_, ?_, ?_⟩
  · rw [grows, grown, List.append_assoc]
  · rw [List.map_append, named, names]
  · intro event member
    rcases List.mem_append.mp member with first | last
    · exact own event first
    · rw [← front.taskId, ← front.id]
      exact owns event last

/-- Only the call and the events before matter. -/
theorem of_start (published : Published kinds middle after) (call : middle.call = before.call)
    (events : middle.events = before.events) : Published kinds before after := by
  rcases published with ⟨taskId, id, given, grown, named, own⟩
  rw [call] at taskId id own
  rw [events] at grown
  exact ⟨taskId, id, given, grown, named, own⟩

theorem of_emit {kind : EventType} {payload : List (String × Json)}
    (taskId : after.call.taskId = before.call.taskId)
    (id : after.call.id = before.call.id)
    (names : Json.lookup "call_id" payload = some (.str before.call.id))
    (events : after.events = before.events ++
      [{ eventType := kind, taskId := before.call.taskId, payload }]) :
    Published [kind] before after :=
  ⟨taskId, id, _, events, rfl, List.forall_mem_singleton.mpr ⟨rfl, names⟩⟩

end Published

namespace ToolRunner

variable {externals : RunnerExternals} {surroundings : Surroundings} {runner : ToolRunner}
  {tool : Tool} {state : RunState}

/-- The call comes as far as the check of its arguments, and fails it. -/
def RefusesArguments (externals : RunnerExternals) (surroundings : Surroundings)
    (runner : ToolRunner) (state : RunState) : Prop :=
  surroundings.cancelled .start = false ∧
    ∃ tool, runner.registry.get state.call.tool = some tool ∧
      (tool.capabilities.contains "mcp-external" &&
        (runner.registry.argumentGuard state.call.tool).isNone) = false ∧
      runner.objection state.call = none ∧
      ∃ problem problems,
        checkArguments externals.schemaErrors tool state.call.arguments =
          .ok (problem :: problems)

theorem fail_published (externals : RunnerExternals) (state : RunState) (error : String) :
    Published [.toolFailed] state (fail externals state error).2 :=
  .of_emit rfl rfl rfl rfl

theorem deny_published (externals : RunnerExternals) (state : RunState) (reason : String) :
    Published [.permissionDenied] state (deny externals state reason).2 :=
  .of_emit rfl rfl rfl rfl

/-- How far the checks before the authorization come. -/
inductive Asks (refused : Prop) (state : RunState) : Except RunEnd (Tool × RunState) → Prop
  | unasked {ended : RunEnd} {kinds : List EventType} (accepts : ¬ refused)
      (early : kinds = [] ∨ kinds = [.toolFailed]) (published : Published kinds state ended.2) :
      Asks refused state (.error ended)
  | refused {ended : RunEnd} (refuses : refused)
      (published : Published [.toolRequested, .toolFailed] state ended.2) :
      Asks refused state (.error ended)
  | raised {ended : RunEnd} (accepts : ¬ refused)
      (published : Published [.toolRequested] state ended.2) :
      Asks refused state (.error ended)
  | passed {tool : Tool} {after : RunState} (accepts : ¬ refused)
      (published : Published [.toolRequested] state after) :
      Asks refused state (.ok (tool, after))

theorem screen_published (externals : RunnerExternals) (surroundings : Surroundings)
    (runner : ToolRunner) (state : RunState) :
    Asks (RefusesArguments externals surroundings runner state) state
      (screen externals surroundings runner state) := by
  unfold screen RefusesArguments
  dsimp only
  cases cancelled : surroundings.cancelled .start with
  | true => exact .unasked (by simp) (.inl rfl) (.of_same rfl rfl rfl)
  | false =>
      simp only [Bool.false_eq_true, if_false, true_and]
      cases found : runner.registry.get state.call.tool with
      | none => exact .unasked (by simp) (.inr rfl) (.of_emit rfl rfl rfl rfl)
      | some tool =>
          simp only [Option.some.injEq, exists_eq_left']
          cases revoked : tool.capabilities.contains "mcp-external" &&
              (runner.registry.argumentGuard state.call.tool).isNone with
          | true => exact .unasked (by simp) (.inr rfl) (.of_emit rfl rfl rfl rfl)
          | false =>
              simp only [Bool.false_eq_true, if_false, true_and]
              cases objects : runner.objection state.call with
              | some text => exact .unasked (by simp) (.inr rfl) (.of_emit rfl rfl rfl rfl)
              | none =>
                  simp only [true_and]
                  cases checked : checkArguments externals.schemaErrors tool
                      state.call.arguments with
                  | error error => exact .raised (by simp) (.of_emit rfl rfl rfl rfl)
                  | ok problems =>
                      cases problems with
                      | nil => exact .passed (by simp) (.of_emit rfl rfl rfl rfl)
                      | cons problem problems =>
                          refine .refused ⟨problem, problems, rfl⟩ ?_
                          have asked : Published [.toolRequested] state (emit state
                              .toolRequested [("tool", .str state.call.tool),
                                ("call_id", .str state.call.id),
                                ("arguments", externals.safePayload state.call.arguments)]) :=
                            .of_emit rfl rfl rfl rfl
                          exact asked.trans (fail_published externals _ _)

/-- Waiting for a human is announced before and behind. -/
def waitKinds : List (List EventType) := [[], [.approvalRequested, .approvalDecided]]

def endKinds : List (List EventType) :=
  [[], [.permissionDenied], [.permissionGranted, .toolStarted, .toolCompleted],
    [.permissionGranted, .toolStarted, .toolFailed]]

theorem awaitDecision_published (externals : RunnerExternals) (surroundings : Surroundings)
    (permission : Permission) (state : RunState) :
    Published [.approvalRequested, .approvalDecided] state
      (awaitDecision externals surroundings permission state).2 :=
  ⟨rfl, rfl, [_, _], List.append_assoc .., rfl,
    List.forall_mem_cons.mpr ⟨⟨rfl, rfl⟩, List.forall_mem_singleton.mpr ⟨rfl, rfl⟩⟩⟩

theorem settle_published (externals : RunnerExternals) (surroundings : Surroundings)
    (runner : ToolRunner) (tool : Tool) (permission : Permission) (state : RunState) :
    ∃ kinds ∈ waitKinds, Published kinds state
      (settle externals surroundings runner tool permission state).2 := by
  unfold settle
  split
  · refine ⟨_, List.mem_cons_of_mem _ List.mem_cons_self, ?_⟩
    have decided := awaitDecision_published externals surroundings permission state
    unfold awaitHuman
    generalize awaitDecision externals surroundings permission state = answered at decided ⊢
    rcases answered with ⟨awaited, after⟩
    dsimp only at decided ⊢
    split
    · split
      · exact decided.trans (.of_same rfl rfl rfl)
      · exact decided.trans (.of_same rfl rfl rfl)
    · exact decided
  · exact ⟨_, List.mem_cons_self, .of_same rfl rfl rfl⟩

/-- How the authorization of a request ends. -/
inductive Permits (state : RunState) : Except RunEnd (Permission × RunState) → Prop
  | refused {ended : RunEnd} {waits kinds : List EventType} (waited : waits ∈ waitKinds)
      (ends : kinds ∈ endKinds) (published : Published (waits ++ kinds) state ended.2) :
      Permits state (.error ended)
  | granted {permission : Permission} {after : RunState} {waits : List EventType}
      (waited : waits ∈ waitKinds) (published : Published waits state after) :
      Permits state (.ok (permission, after))

theorem quiet_endKinds : [] ∈ endKinds := List.mem_cons_self

theorem denied_endKinds : [.permissionDenied] ∈ endKinds :=
  List.mem_cons_of_mem _ List.mem_cons_self

theorem permit_published (externals : RunnerExternals) (surroundings : Surroundings)
    (runner : ToolRunner) (tool : Tool) (state : RunState) :
    Permits state (permit externals surroundings runner tool state) := by
  unfold permit
  dsimp only
  generalize runner.authorizer.authorize externals.toExternals surroundings state.call.taskId
    tool state.call state.approvals = authorized
  rcases authorized with ⟨answer, approvals⟩
  cases answer with
  | error error => exact .refused List.mem_cons_self denied_endKinds (.of_emit rfl rfl rfl rfl)
  | ok permission =>
      dsimp only
      rcases settle_published externals surroundings runner tool permission
        { state with approvals } with ⟨waits, listed, settled⟩
      have waited : Published waits state (settle externals surroundings runner tool
          permission { state with approvals }).2 := settled.of_start rfl rfl
      generalize settle externals surroundings runner tool permission
        { state with approvals } = answered at waited ⊢
      rcases answered with ⟨decided, after⟩
      dsimp only at waited ⊢
      split
      · exact .refused listed denied_endKinds (waited.trans (deny_published externals _ _))
      · split
        · exact .refused listed quiet_endKinds (waited.trans (.of_same rfl rfl rfl))
        · exact .granted listed waited

/-- How the reservation of a permitted call ends. -/
inductive Reservation (state : RunState) : Except RunEnd (String × RunState) → Prop
  | refused {ended : RunEnd} (published : Published [.permissionDenied] state ended.2) :
      Reservation state (.error ended)
  | reserved {identity : String} {after : RunState} (published : Published [] state after) :
      Reservation state (.ok (identity, after))

theorem reserve_published (externals : RunnerExternals) (tool : Tool) (state : RunState) :
    Reservation state (reserve externals tool state) := by
  unfold reserve
  dsimp only
  split
  · exact .refused (.of_emit rfl rfl rfl rfl)
  · split
    · exact .refused (.of_emit rfl rfl rfl rfl)
    · exact .reserved (.of_same rfl rfl rfl)

theorem finish_published (externals : RunnerExternals) (tool : Tool) (identity crash : String)
    (state : RunState) (outcome : HandlerOutcome) :
    ∃ kind ∈ [EventType.toolCompleted, .toolFailed],
      Published [kind] state (finish externals tool identity crash state outcome).2 := by
  unfold finish
  cases outcome with
  | deadline => exact ⟨_, List.mem_cons_of_mem _ List.mem_cons_self, fail_published ..⟩
  | otherValue typeName =>
      exact ⟨_, List.mem_cons_of_mem _ List.mem_cons_self, fail_published ..⟩
  | raised error => exact ⟨_, List.mem_cons_of_mem _ List.mem_cons_self, fail_published ..⟩
  | result result =>
      cases succeeded : result.success with
      | true =>
          refine ⟨.toolCompleted, List.mem_cons_self, ?_⟩
          simp only [succeeded, if_true]
          exact .of_emit rfl rfl rfl rfl
      | false =>
          refine ⟨.toolFailed, List.mem_cons_of_mem _ List.mem_cons_self, ?_⟩
          simp only [succeeded, Bool.false_eq_true, if_false]
          exact .of_emit rfl rfl rfl rfl

theorem invoke_published (externals : RunnerExternals) (surroundings : Surroundings)
    (tool : Tool) (permission : Permission) (identity crash : String) (handler : ToolHandler)
    (state : RunState) :
    ∃ kind ∈ [EventType.toolCompleted, .toolFailed], Published [kind] state
      (invoke externals surroundings tool permission identity crash handler state).2 := by
  unfold invoke
  rcases finish_published externals tool identity crash _ _ with ⟨kind, listed, published⟩
  exact ⟨kind, listed, published.of_start rfl rfl⟩

theorem begun_published {granted started : List (String × Json)} (state : RunState)
    (grants : Json.lookup "call_id" granted = some (.str state.call.id))
    (starts : Json.lookup "call_id" started = some (.str state.call.id)) :
    Published [.permissionGranted, .toolStarted] state
      (emit (withStatus (emit state .permissionGranted granted) .execute) .toolStarted
        started) :=
  ⟨rfl, rfl, [_, _], List.append_assoc .., rfl,
    List.forall_mem_cons.mpr ⟨⟨rfl, grants⟩, List.forall_mem_singleton.mpr ⟨rfl, starts⟩⟩⟩

theorem execute_published (externals : RunnerExternals) (surroundings : Surroundings)
    (runner : ToolRunner) (tool : Tool) (permission : Permission) (identity : String)
    (state : RunState) :
    ∃ kind ∈ [EventType.toolCompleted, .toolFailed],
      Published [.permissionGranted, .toolStarted, kind] state
        (execute externals surroundings runner tool permission identity state).2 := by
  have failed : EventType.toolFailed ∈ [EventType.toolCompleted, .toolFailed] :=
    List.mem_cons_of_mem _ List.mem_cons_self
  have begun : Published [.permissionGranted, .toolStarted] state
      (emit (withStatus (emit state .permissionGranted
        [("tool", .str state.call.tool), ("call_id", .str state.call.id),
          ("approval_id", .str (approvalText externals permission)),
          ("action_hash", .str identity)]) .execute) .toolStarted
        [("tool", .str state.call.tool), ("call_id", .str state.call.id),
          ("action_hash", .str identity)]) := begun_published state rfl rfl
  unfold execute
  dsimp only
  generalize emit (withStatus (emit state .permissionGranted _) .execute) .toolStarted _ =
    started at begun ⊢
  have invoked : ∀ crash handler, ∃ kind ∈ [EventType.toolCompleted, .toolFailed],
      Published [.permissionGranted, .toolStarted, kind] state
        (invoke externals surroundings tool permission identity crash handler started).2 := by
    intro crash handler
    rcases invoke_published externals surroundings tool permission identity crash handler
      started with ⟨kind, listed, published⟩
    exact ⟨kind, listed, begun.trans published⟩
  split
  · exact ⟨_, failed, begun.trans (fail_published ..)⟩
  · split
    · split
      · exact invoked _ _
      · exact ⟨_, failed, begun.trans (fail_published ..)⟩
    · exact invoked _ _

/-- The orders in which a call publishes its events: it is stopped before it is asked for,
or its arguments are refused, or it goes on to one of the ends. -/
theorem run_published (externals : RunnerExternals) (surroundings : Surroundings)
    (runner : ToolRunner) (state : RunState) :
    ∃ kinds, Published kinds state (run externals surroundings runner state).2 ∧
      (¬ RefusesArguments externals surroundings runner state ∧
          (kinds = [] ∨ kinds = [.toolFailed]) ∨
        RefusesArguments externals surroundings runner state ∧
          kinds = [.toolRequested, .toolFailed] ∨
        ¬ RefusesArguments externals surroundings runner state ∧
          ∃ waits ∈ waitKinds, ∃ ends ∈ endKinds,
            kinds = [.toolRequested] ++ (waits ++ ends)) := by
  have completed : ∀ kind ∈ [EventType.toolCompleted, .toolFailed],
      [.permissionGranted, .toolStarted, kind] ∈ endKinds := by decide
  have screened := screen_published externals surroundings runner state
  unfold run
  generalize screen externals surroundings runner state = answer at screened ⊢
  cases screened with
  | unasked accepts early published => exact ⟨_, published, .inl ⟨accepts, early⟩⟩
  | refused refuses published => exact ⟨_, published, .inr (.inl ⟨refuses, rfl⟩)⟩
  | raised accepts published =>
      exact ⟨_, published, .inr (.inr ⟨accepts, [], List.mem_cons_self, [], quiet_endKinds,
        rfl⟩)⟩
  | @passed tool asked accepts published =>
      have permitted := permit_published externals surroundings runner tool asked
      dsimp only
      generalize permit externals surroundings runner tool asked = answer at permitted ⊢
      cases permitted with
      | refused waited ends denied =>
          exact ⟨_, published.trans denied, .inr (.inr ⟨accepts, _, waited, _, ends, rfl⟩)⟩
      | @granted permission allowed waits waited allows =>
          have reserved := reserve_published externals tool allowed
          dsimp only
          generalize reserve externals tool allowed = answer at reserved ⊢
          cases reserved with
          | refused denied =>
              exact ⟨_, published.trans (allows.trans denied),
                .inr (.inr ⟨accepts, _, waited, _, denied_endKinds, rfl⟩)⟩
          | @reserved identity kept keeps =>
              rcases execute_published externals surroundings runner tool permission identity
                kept with ⟨kind, listed, executed⟩
              exact ⟨_, published.trans (allows.trans (keeps.trans executed)),
                .inr (.inr ⟨accepts, _, waited, _, completed kind listed, rfl⟩)⟩

end ToolRunner

end Raphael.Tools
