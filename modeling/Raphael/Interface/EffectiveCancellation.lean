import Raphael.Interface.Cancellation
import Raphael.Runtime.TransitionRace

/-! # No handler after a cancellation

Every step of every thread keeps the invariant, and so does every run that heeds the
condition. -/

namespace Raphael.Interface

open Foundation Persistence Raphael.Runtime

/-! ## The threads of the tasks -/

theorem source_ofSource (source : Source) : (Job.ofSource source).source = source := by
  cases source <;> rfl

namespace Serving

variable {task other : TaskId} {state next : Serving}

namespace Carries

variable {before after : Serving}

/-- The stage and the token are as before. -/
theorem of_frame (agrees : (before.stage task).Agrees (before.tokens task))
    (row : before.restsOnRow task = true → before.row task = some .cancelled →
      after.row task = some .cancelled)
    (stage : after.stage task = before.stage task)
    (tokens : after.tokens task = before.tokens task) : Carries task before after where
  row := row
  agrees := by rwa [stage, tokens]
  guarded := fun _ _ behind => by rwa [stage]
  untokened := fun none => .inl (by rwa [stage])
  registered := fun there => .inl (by rwa [tokens])
  cancelled := fun done => by rwa [tokens]
  ended := fun gone => by rwa [stage]

/-- The token is as before, and the task's thread has ended or is of the same kind. -/
theorem of_stage (agrees : (before.stage task).Agrees (before.tokens task))
    (row : before.restsOnRow task = true → before.row task = some .cancelled →
      after.row task = some .cancelled)
    (tokens : after.tokens task = before.tokens task)
    (running : before.stage task ≠ .ended)
    (kind : after.stage task = .ended ∨
      ((after.stage task).holdsToken = (before.stage task).holdsToken ∧
        ((before.stage task).untokened = true → (after.stage task).untokened = true)))
    (guarded : before.restsOnRow task = true → before.row task = some .cancelled →
      (before.stage task).guarded task = true → (after.stage task).guarded task = true) :
    Carries task before after where
  row := row
  agrees := by
    rcases kind with ended | ⟨holds, _⟩
    · exact .inl ended
    · rw [tokens, Stage.Agrees, holds]
      exact .inr (agrees.resolve_left running)
  guarded := guarded
  untokened := fun none => by
    rcases kind with ended | ⟨_, kept⟩
    · exact .inr ended
    · exact .inl (kept none)
  registered := fun there => .inl (by rwa [tokens])
  cancelled := fun done => by rwa [tokens]
  ended := fun gone => absurd gone running

end Carries

theorem submit_row (state : Serving) (task other : TaskId) (source : Source) :
    (state.submit other source).row task = state.row task := by
  simp only [submit]
  split <;> rfl

theorem submit_tokens (state : Serving) (task : TaskId) (source : Source) :
    (state.submit task source).tokens = state.tokens := by
  simp only [submit]
  split <;> rfl

theorem submit_stage (state : Serving) (task : TaskId) (source : Source) :
    (state.submit task source).stage = Function.update state.stage task .ended ∨
      (state.submit task source).stage = Function.update state.stage task (.queued source) := by
  simp only [submit]
  split
  · exact .inl rfl
  · exact .inr rfl

theorem submit_frame (state : Serving) (task : TaskId) (source : Source) :
    (state.submit task source).cancels = state.cancels ∧
      (state.submit task source).calls = state.calls ∧
      (state.submit task source).missed = state.missed ∧
      (state.submit task source).cancelReturned = state.cancelReturned := by
  simp only [submit]
  split <;> exact ⟨rfl, rfl, rfl, rfl⟩

/-- One task gets another stage, and no token changes. -/
theorem carries_update {stage : Stage} (agrees : (state.stage task).Agrees (state.tokens task))
    (row : state.restsOnRow task = true → state.row task = some .cancelled →
      next.row task = some .cancelled)
    (stages : next.stage = Function.update state.stage other stage)
    (tokens : next.tokens = state.tokens) (running : state.stage other ≠ .ended)
    (kind : stage = .ended ∨ (stage.holdsToken = (state.stage other).holdsToken ∧
      ((state.stage other).untokened = true → stage.untokened = true)))
    (guarded : task = other → state.restsOnRow task = true → state.row task = some .cancelled →
      (state.stage task).guarded task = true → stage.guarded task = true) :
    Carries task state next := by
  by_cases same : task = other
  · subst same
    have now : next.stage task = stage := by rw [stages, Function.update_self]
    exact .of_stage agrees row (congrFun tokens task) running (by rwa [now])
      (fun rests held behind => now ▸ guarded rfl rests held behind)
  · exact .of_frame agrees row (by rw [stages, Function.update_of_ne same])
      (congrFun tokens task)

/-- A task is submitted. -/
theorem carries_submit {source : Source}
    (agrees : (state.stage task).Agrees (state.tokens task))
    (running : state.stage other ≠ .ended)
    (holds : (Stage.queued source).holdsToken = (state.stage other).holdsToken)
    (unheld : (state.stage other).untokened = true → (Stage.queued source).untokened = true) :
    Carries task state (state.submit other source) := by
  have row : state.row task = some .cancelled →
      (state.submit other source).row task = some .cancelled := by
    rw [submit_row]
    exact id
  have tokens := submit_tokens state other source
  rcases submit_stage state other source with stages | stages
  · exact carries_update agrees (fun _ => row) stages tokens running (.inl rfl)
      (fun _ _ _ _ => rfl)
  · exact carries_update agrees (fun _ => row) stages tokens running (.inr ⟨holds, unheld⟩)
      (fun _ _ _ _ => rfl)

/-- Where a creation leads. -/
theorem createOn_stage (database : Database Tables) (task : TaskId) (phase : CreationPhase) :
    (createOn database task phase).2 = .ended ∨ (createOn database task phase).2 = .accepted ∨
      ∃ following, (createOn database task phase).2 = .creating following := by
  cases phase with
  | entering =>
      simp only [createOn]
      cases database.enter with
      | error _ => exact .inl rfl
      | ok entered => exact .inr (.inr ⟨_, rfl⟩)
  | inserting outermost =>
      simp only [createOn]
      cases rowOf database task with
      | some _ => exact .inr (.inr ⟨_, rfl⟩)
      | none => exact .inr (.inr ⟨_, rfl⟩)
  | saving outermost => exact .inr (.inr ⟨_, rfl⟩)
  | leaving outermost raised =>
      simp only [createOn]
      split
      · exact .inl rfl
      · exact .inr (.inl rfl)

theorem createFails_stage (database : Database Tables) (phase : CreationPhase) :
    (createFails database phase).2 = .ended ∨
      ∃ following, (createFails database phase).2 = .creating following := by
  cases phase with
  | entering => exact .inl rfl
  | inserting outermost => exact .inr ⟨_, rfl⟩
  | saving outermost => exact .inr ⟨_, rfl⟩
  | leaving outermost raised => exact .inl rfl

end Serving

namespace Serving

variable {task other : TaskId} {state next : Serving} {finding : Bool}

/-- The row in a step that moves a transition or a creation. -/
theorem takesOut_of_kept {action : ServeAction}
    (kept : state.losesCancellation task action = false)
    (rests : state.restsOnRow task = true) {phase : Phase}
    (moving : state.moves action = some phase) : takesOut task state.database phase = false := by
  simpa [losesCancellation, rests, moving] using kept

/-- The token is made when the task is registered. -/
theorem carries_register (agrees : (state.stage task).Agrees (state.tokens task))
    (stands : state.stage other = .accepted) :
    Carries task state ((state.setToken other { registered := true }).setStage other
      .registered) := by
  by_cases same : task = other
  · subst same
    have fresh : state.tokens task = {} := by
      rcases agrees with ended | ⟨holds, _⟩ | ⟨_, fresh⟩
      · simp [stands] at ended
      · simp [stands, Stage.holdsToken] at holds
      · exact fresh
    exact {
      row := fun _ => id
      agrees := .inr (.inl (by simp [setStage, setToken, Stage.holdsToken]))
      guarded := fun _ _ _ => by simp [setStage, Stage.guarded]
      untokened := fun none => by simp [stands, Stage.untokened] at none
      registered := fun there => by simp [fresh] at there
      cancelled := fun done => by simp [fresh] at done
      ended := fun gone => by simp [stands] at gone }
  · exact .of_frame agrees (fun _ => id) (Function.update_of_ne same ..)
      (Function.update_of_ne same ..)

theorem carries_finish (agrees : (state.stage task).Agrees (state.tokens task))
    (other : TaskId) : Carries task state (state.finish other) := by
  by_cases same : task = other
  · subst same
    exact {
      row := fun _ => id
      agrees := .inl (by simp [finish, setStage])
      guarded := fun _ _ _ => by simp [finish, setStage, Stage.guarded]
      untokened := fun _ => .inr (by simp [finish, setStage])
      registered := fun _ => .inr (by simp [finish, setStage])
      cancelled := fun done => by simpa [finish] using done
      ended := fun _ => by simp [finish, setStage] }
  · exact .of_frame agrees (fun _ => id) (Function.update_of_ne same ..)
      (Function.update_of_ne same ..)

theorem carries_advance (agrees : (state.stage task).Agrees (state.tokens task))
    (kept : state.losesCancellation task (.advance other finding) = false)
    (stepped : state.advance other finding = some next) : Carries task state next := by
  simp only [advance] at stepped
  cases stands : state.stage other with
  | unknown => simp [stands] at stepped
  | interrupted => simp [stands] at stepped
  | ended => simp [stands] at stepped
  | creating phase =>
      simp only [stands, Option.some.injEq] at stepped
      subst stepped
      have row : state.restsOnRow task = true → state.row task = some .cancelled →
          rowOf (createOn state.database other phase).1 task = some .cancelled := by
        intro rests held
        refine createOn_row held fun outermost raised leaving => takesOut_of_kept kept rests ?_
        subst leaving
        simp [moves, stands]
      refine carries_update agrees row rfl rfl (by simp [stands]) ?_ ?_ <;>
        rcases createOn_stage state.database other phase with same | same | ⟨following, same⟩ <;>
        rw [same]
      · exact .inl rfl
      · exact .inr ⟨by rw [stands]; rfl, by simp [stands, Stage.untokened]⟩
      · exact .inr ⟨by rw [stands]; rfl, by simp [stands, Stage.untokened]⟩
      · exact fun _ _ _ _ => rfl
      · exact fun _ _ _ _ => rfl
      · exact fun _ _ _ _ => rfl
  | accepted =>
      simp only [stands, Option.some.injEq] at stepped
      subst stepped
      cases finding with
      | false =>
          exact carries_update agrees (fun _ => id) rfl rfl (by simp [stands])
            (.inr ⟨by rw [stands]; rfl, by simp [stands, Stage.untokened]⟩)
            (fun _ _ _ _ => rfl)
      | true =>
          exact carries_register agrees stands
  | registered =>
      simp only [stands, Option.some.injEq] at stepped
      subst stepped
      exact carries_submit agrees (by simp [stands]) (by rw [stands]; rfl)
        (by simp [stands, Stage.untokened])
  | queued source =>
      simp only [stands] at stepped
      split at stepped
      · cases stepped
        refine carries_update agrees (fun _ => id) rfl rfl (by simp [stands])
          (.inr ⟨?_, ?_⟩) (fun _ _ _ _ => Job.guarded_ofSource task source)
        · simp [stands, Stage.holdsToken, source_ofSource]
        · simp [stands, Stage.untokened, source_ofSource]
      · cases stepped
  | running job =>
      simp only [stands] at stepped
      cases todo : job.work with
      | nil =>
          simp only [todo, Option.some.injEq] at stepped
          subst stepped
          exact carries_finish agrees other
      | cons operation rest =>
          simp only [todo, Option.some.injEq] at stepped
          subst stepped
          have keeps : state.restsOnRow task = true → ∀ phase, operation = .moving phase →
              takesOut task state.database phase = false := by
            rintro rests phase rfl
            exact takesOut_of_kept kept rests (by simp [moves, stands, todo])
          refine carries_update agrees (fun rests held => Job.perform_row held (keeps rests))
            rfl rfl (by simp [stands]) (.inr ⟨?_, ?_⟩) ?_
          · simp [stands, Stage.holdsToken, Job.source_perform]
          · simp [stands, Stage.untokened, Job.source_perform]
          · intro same rests held behind
            subst same
            refine Job.guarded_perform held (keeps rests) ?_
            simpa [stands, Stage.guarded, todo] using behind

theorem carries_fail (agrees : (state.stage task).Agrees (state.tokens task))
    (stepped : state.fail other = some next) : Carries task state next := by
  simp only [fail] at stepped
  cases stands : state.stage other with
  | creating phase =>
      simp only [stands, Option.some.injEq] at stepped
      subst stepped
      have row : state.restsOnRow task = true → state.row task = some .cancelled →
          rowOf (createFails state.database phase).1 task = some .cancelled :=
        fun _ held => (createFails_row state.database task phase).trans held
      refine carries_update agrees row rfl rfl (by simp [stands]) ?_ ?_ <;>
        rcases createFails_stage state.database phase with same | ⟨following, same⟩ <;>
        rw [same]
      · exact .inl rfl
      · exact .inr ⟨by rw [stands]; rfl, by simp [stands, Stage.untokened]⟩
      · exact fun _ _ _ _ => rfl
      · exact fun _ _ _ _ => rfl
  | running job =>
      simp only [stands] at stepped
      cases todo : job.work with
      | nil =>
          simp only [todo, Option.some.injEq] at stepped
          subst stepped
          refine carries_update agrees (fun _ => id) rfl rfl (by simp [stands])
            (.inr ⟨?_, ?_⟩) (fun _ _ _ _ => Job.guarded_raised task _ job)
          · simp [stands, Stage.holdsToken]
          · simp [stands, Stage.untokened]
      | cons operation rest =>
          simp only [todo, Option.some.injEq] at stepped
          subst stepped
          refine carries_update agrees
            (fun _ held => (Job.fails_row _ _ task job rest operation).trans held) rfl rfl
            (by simp [stands]) (.inr ⟨?_, ?_⟩) (fun _ _ _ _ => Job.guarded_fails operation)
          · simp [stands, Stage.holdsToken, Job.source_fails]
          · simp [stands, Stage.untokened, Job.source_fails]
  | unknown => simp [stands] at stepped
  | interrupted => simp [stands] at stepped
  | accepted => simp [stands] at stepped
  | registered => simp [stands] at stepped
  | queued source => simp [stands] at stepped
  | ended => simp [stands] at stepped

end Serving

theorem Stage.guarded_or_untokened (task : TaskId) {stage : Stage}
    (none : stage.holdsToken = false) :
    stage.guarded task = true ∨ stage.untokened = true := by
  cases stage with
  | running job => exact .inr (by simpa [holdsToken, untokened] using none)
  | _ => exact .inl rfl

namespace Serving

variable {task : TaskId} {state next : Serving}

theorem advance_aside {other : TaskId} {finding : Bool}
    (stepped : state.advance other finding = some next) :
    next.cancels = state.cancels ∧ next.calls = state.calls ∧ next.missed = state.missed ∧
      next.cancelReturned = state.cancelReturned := by
  simp only [advance] at stepped
  cases stands : state.stage other with
  | unknown => simp [stands] at stepped
  | interrupted => simp [stands] at stepped
  | ended => simp [stands] at stepped
  | creating phase =>
      simp only [stands, Option.some.injEq] at stepped
      subst stepped
      exact ⟨rfl, rfl, rfl, rfl⟩
  | accepted =>
      simp only [stands, Option.some.injEq] at stepped
      subst stepped
      cases finding <;> exact ⟨rfl, rfl, rfl, rfl⟩
  | registered =>
      simp only [stands, Option.some.injEq] at stepped
      subst stepped
      exact submit_frame state other .dispatched
  | queued source =>
      simp only [stands] at stepped
      split at stepped <;> cases stepped
      exact ⟨rfl, rfl, rfl, rfl⟩
  | running job =>
      simp only [stands] at stepped
      split at stepped <;> cases stepped <;> exact ⟨rfl, rfl, rfl, rfl⟩

theorem fail_aside {other : TaskId} (stepped : state.fail other = some next) :
    next.cancels = state.cancels ∧ next.calls = state.calls ∧ next.missed = state.missed ∧
      next.cancelReturned = state.cancelReturned := by
  simp only [fail] at stepped
  split at stepped
  · cases stepped
    exact ⟨rfl, rfl, rfl, rfl⟩
  · split at stepped <;> cases stepped <;> exact ⟨rfl, rfl, rfl, rfl⟩
  · cases stepped

/-! ## The calls of `cancel_task` -/

/-- A call of `cancel_task` goes on. -/
theorem Carries.sound_cancel {call : Nat} {cancel : CancelCall} {phase : CancelPhase}
    (carries : Carries task state next) (sound : Sound task state)
    (cancels : next.cancels = Function.update state.cancels call (some { cancel with phase }))
    (calls : next.calls = state.calls)
    (backs : cancel.task = task → next.Backs task phase)
    (missedStays : state.missed task = true → next.missed task = true)
    (missed : next.missed task = true → state.missed task = true ∨ next.stage task = .ended ∨
      (next.row task = some .cancelled ∧
        ((next.stage task).guarded task = true ∨ (next.stage task).untokened = true)))
    (returnedStays : state.cancelReturned task = true → next.cancelReturned task = true)
    (returned : next.cancelReturned task = true → state.cancelReturned task = true ∨
      (next.tokens task).cancelled = true ∨
        (next.missed task = true ∧ (next.stage task).guarded task = true)) :
    Sound task next where
  agrees := carries.agrees
  cancels := by
    intro other otherCancel found same
    rw [cancels] at found
    rcases update_eq_some found with ⟨_, written⟩ | ⟨_, before⟩
    · cases written
      exact backs same
    · exact carries.backs sound.agrees missedStays (sound.cancels other otherCancel before same)
  missed := fun lost => (missed lost).elim (carries.missed sound) id
  returned := by
    intro done
    rcases returned done with before | now
    · rcases sound.returned before with cancelled | ⟨lost, behind⟩
      · exact .inl (carries.cancelled cancelled)
      · exact .inr ⟨missedStays lost, carries.guarded_of_missed sound lost behind⟩
    · exact now
  calls := by
    rw [calls]
    intro other run found same late
    rcases sound.calls other run found same late with ⟨done, refused | ⟨begun, seen⟩⟩
    · exact ⟨returnedStays done, .inl refused⟩
    · exact ⟨returnedStays done, .inr ⟨begun, carries.sees same seen⟩⟩

/-- A call of `cancel_task` goes on and changes nothing else. -/
theorem Sound.setPhase {call : Nat} {cancel : CancelCall} {phase : CancelPhase}
    (sound : Sound task state) (backs : cancel.task = task → state.Backs task phase) :
    Sound task (state.setCancel call { cancel with phase }) :=
  Carries.sound_cancel (.of_frame sound.agrees (fun _ => id) rfl rfl) sound rfl rfl backs id
    .inl id .inl

/-- A cancellation that finds no token rests on the row. -/
theorem rests_of_held (agrees : (state.stage task).Agrees (state.tokens task))
    (held : state.Held task) (missing : (state.tokens task).registered = false) :
    state.stage task = .ended ∨ (state.row task = some .cancelled ∧
      ((state.stage task).guarded task = true ∨ (state.stage task).untokened = true)) := by
  rcases held with row | registered | ended
  · rcases agrees with ended | ⟨_, registered⟩ | ⟨none, _⟩
    · exact .inl ended
    · rw [missing] at registered
      cases registered
    · exact .inr ⟨row, Stage.guarded_or_untokened task none⟩
  · rw [missing] at registered
    cases registered
  · exact .inl ended

/-- A token that is there is cancelled. -/
theorem agrees_cancelled (agrees : (state.stage task).Agrees (state.tokens task))
    (reached : (state.tokens task).registered = true ∨ state.stage task = .ended) :
    (state.stage task).Agrees { state.tokens task with cancelled := true } := by
  rcases agrees with ended | ⟨holds, there⟩ | ⟨none, fresh⟩
  · exact .inl ended
  · exact .inr (.inl ⟨holds, there⟩)
  · rcases reached with there | ended
    · simp [fresh] at there
    · exact .inl ended

/-- A cancellation that has missed the token stands behind its last look at the row. -/
theorem Sound.guarded_of_missed (sound : Sound task state) (lost : state.missed task = true)
    (looks : (state.stage task).untokened = true → (state.stage task).guarded task = true) :
    (state.stage task).guarded task = true := by
  rcases sound.missed lost with ended | ⟨_, behind | none⟩
  · simp [ended, Stage.guarded]
  · exact behind
  · exact looks none

/-- What the transition of `cancel_task` has reached behind its next database call. -/
theorem backs_moveOn {phase : Phase} (carries : Carries task state next)
    (agrees : (state.stage task).Agrees (state.tokens task))
    (database : next.database = (moveOn state.database phase).1)
    (backs : state.Backs task (.moving phase)) :
    next.Backs task (hooked (moveOn state.database phase).2) := by
  cases phase with
  | entering other target =>
      simp only [moveOn, Managing.advancePhase]
      cases state.database.enter with
      | error _ => trivial
      | ok entered => exact backs
  | getting outermost other target =>
      simp only [moveOn, Managing.advancePhase]
      cases state.database.connection.visible.tasks other with
      | none => trivial
      | some read =>
          cases verdict : assertTransition read target with
          | error _ => simp [verdict, hooked, Backs]
          | ok _ => simpa [verdict, hooked, Backs] using backs
  | updating outermost other target read =>
      -- The row is written.
      rcases backs with ⟨rfl, rfl⟩
      refine .inl ?_
      simp [row, rowOf, database, moveOn, Managing.advancePhase]
  | loading outermost other target =>
      have held : next.Held task := carries.held agrees backs
      simp only [moveOn, Managing.advancePhase]
      cases state.database.connection.visible.contexts other with
      | none => exact held
      | some _ => exact held
  | saving outermost other target => exact carries.held agrees backs
  | leaving outermost raised =>
      cases raised with
      | true => trivial
      | false =>
          have held : next.Held task := carries.held agrees backs
          simp only [moveOn, Managing.advancePhase]
          split
          · exact held
          · trivial

theorem backs_moveFails (state : Serving) (task : TaskId) (database : Database Tables)
    (phase : Phase) : state.Backs task (hooked (moveFails database phase).2) := by
  cases phase <;> trivial

/-- The call has looked for the token, and has missed it where there is none. -/
theorem sound_hook {call : Nat} {cancel : CancelCall} (sound : Sound task state)
    (found : state.cancels call = some cancel) (stands : cancel.phase = .hooking) :
    Sound task { state.setCancel call { cancel with
        phase := .looked (state.tokens cancel.task).registered } with
      missed := Function.update state.missed cancel.task
        (state.missed cancel.task || !(state.tokens cancel.task).registered) } := by
  refine Carries.sound_cancel (.of_frame sound.agrees (fun _ => id) rfl rfl) sound rfl rfl
    (fun same => ?_) (fun lost => ?_) (fun lost => ?_) id .inl
  · subst same
    cases there : (state.tokens cancel.task).registered with
    | true => exact .inl there
    | false => simp [Backs]
  · by_cases same : task = cancel.task
    · subst same
      simp [lost]
    · simpa [Function.update_of_ne same] using lost
  · by_cases same : task = cancel.task
    · subst same
      simp only [Function.update_self, Bool.or_eq_true, Bool.not_eq_true'] at lost
      refine lost.imp_right fun missing => ?_
      have held := sound.cancels call cancel found rfl
      rw [stands] at held
      exact rests_of_held sound.agrees held missing
    · exact .inl (by simpa [Function.update_of_ne same] using lost)

/-- The call cancels the token that it has found. -/
theorem sound_cancelToken {call : Nat} {cancel : CancelCall} (sound : Sound task state)
    (found : state.cancels call = some cancel) (stands : cancel.phase = .looked true) :
    Sound task ((state.setToken cancel.task
      { state.tokens cancel.task with cancelled := true }).setCancel call
        { cancel with phase := .returning }) := by
  by_cases same : cancel.task = task
  · subst same
    have reached := sound.cancels call cancel found rfl
    rw [stands] at reached
    have agrees := agrees_cancelled sound.agrees reached
    have carries : Carries cancel.task state ((state.setToken cancel.task
        { state.tokens cancel.task with cancelled := true }).setCancel call
          { cancel with phase := .returning }) := {
      row := fun _ => id
      agrees := by simpa [setToken, setCancel] using agrees
      guarded := fun _ _ => id
      untokened := .inl
      registered := fun there => .inl (by simpa [setToken, setCancel] using there)
      cancelled := fun _ => by simp [setToken, setCancel]
      ended := id }
    exact carries.sound_cancel sound rfl rfl
      (fun _ => .inl (by simp [setToken, setCancel])) id .inl id .inl
  · have different : task ≠ cancel.task := fun equal => same equal.symm
    exact Carries.sound_cancel (.of_frame sound.agrees (fun _ => id) rfl
      (Function.update_of_ne different ..)) sound rfl rfl
        (fun equal => absurd equal same) id .inl id .inl

theorem sound_return {call : Nat} {cancel : CancelCall} (sound : Sound task state)
    (found : state.cancels call = some cancel) (stands : cancel.phase = .returning)
    (heeds : state.Heeds task (.advanceCancel call)) :
    Sound task { state.setCancel call { cancel with phase := .returned } with
      cancelReturned := Function.update state.cancelReturned cancel.task true } := by
  refine Carries.sound_cancel (.of_frame sound.agrees (fun _ => id) rfl rfl) sound rfl rfl
    (fun _ => trivial) id .inl (fun done => ?_) (fun done => ?_)
  · by_cases same : task = cancel.task
    · subst same
      simp
    · simpa [Function.update_of_ne same] using done
  · by_cases same : task = cancel.task
    · subst same
      have reached := sound.cancels call cancel found rfl
      rw [stands] at reached
      refine .inr (reached.imp_right fun lost =>
        ⟨lost, sound.guarded_of_missed lost fun none => ?_⟩)
      simpa [returnsUnguarded, found, stands, none] using heeds.2
    · exact .inl (by simpa [Function.update_of_ne same] using done)

theorem sound_advanceCancel {call : Nat} {cancel : CancelCall} (sound : Sound task state)
    (found : state.cancels call = some cancel)
    (heeds : state.Heeds task (.advanceCancel call))
    (stepped : state.advanceCancel call cancel = some next) : Sound task next := by
  have backs := sound.cancels call cancel found
  simp only [advanceCancel] at stepped
  cases stands : cancel.phase with
  | requiring =>
      simp only [stands, Option.some.injEq] at stepped
      subst stepped
      refine sound.setPhase fun same => ?_
      split
      · trivial
      · split
        · trivial
        · exact ⟨same, rfl⟩
  | moving phase =>
      simp only [stands, Option.some.injEq] at stepped
      subst stepped
      have row : state.restsOnRow task = true → state.row task = some .cancelled →
          rowOf (moveOn state.database phase).1 task = some .cancelled := fun rests held =>
        moveOn_row held (takesOut_of_kept heeds.1 rests (by simp [moves, found, stands]))
      have carries : Carries task state {
          state.setCancel call { cancel with phase := hooked (moveOn state.database phase).2 } with
          database := (moveOn state.database phase).1 } :=
        .of_frame sound.agrees row rfl rfl
      exact carries.sound_cancel sound rfl rfl
        (fun same => backs_moveOn carries sound.agrees rfl (by rw [← stands]; exact backs same))
        id .inl id .inl
  | hooking =>
      simp only [stands, Option.some.injEq] at stepped
      subst stepped
      exact sound_hook sound found stands
  | looked there =>
      simp only [stands, Option.some.injEq] at stepped
      subst stepped
      cases there with
      | false =>
          refine sound.setPhase fun same => .inr ?_
          have reached := backs same
          rw [stands] at reached
          exact reached
      | true =>
          rw [if_pos rfl]
          exact sound_cancelToken sound found stands
  | returning =>
      simp only [stands, Option.some.injEq] at stepped
      subst stepped
      exact sound_return sound found stands heeds
  | returned => simp [stands] at stepped
  | raised => simp [stands] at stepped

theorem sound_failCancel {call : Nat} {cancel : CancelCall} (sound : Sound task state)
    (stepped : state.failCancel call cancel = some next) : Sound task next := by
  simp only [failCancel] at stepped
  split at stepped
  · cases stepped
    exact sound.setPhase fun _ => trivial
  · rename_i phase _
    cases stepped
    have row : state.restsOnRow task = true → state.row task = some .cancelled →
        rowOf (moveFails state.database phase).1 task = some .cancelled :=
      fun _ held => (moveFails_row state.database task phase).trans held
    exact Carries.sound_cancel (.of_frame sound.agrees row rfl rfl) sound rfl rfl
      (fun _ => backs_moveFails _ _ _ _) id .inl id .inl
  · cases stepped

end Serving

/-! ## The calls of `ToolRunner.run` -/

namespace Serving

variable {task : TaskId} {state next : Serving}

/-- A call of the runner begins or goes on. -/
theorem Sound.setCall {call : Nat} {run : RunnerCall} (sound : Sound task state)
    (kept : run.task = task → run.late = true → state.cancelReturned task = true ∧
      (run.phase = .refused ∨ (run.phase = .begun ∧ state.sees run = true))) :
    Sound task (state.setCall call run) where
  agrees := sound.agrees
  cancels := sound.cancels
  missed := sound.missed
  returned := sound.returned
  calls := by
    intro other otherRun found same late
    rcases update_eq_some found with ⟨_, written⟩ | ⟨_, before⟩
    · cases written
      exact kept same late
    · exact sound.calls other otherRun before same late

/-- A call that begins late does not see a token in vain. -/
theorem sound_runTool {call : Nat} {other : TaskId} {expired : Bool} (sound : Sound task state)
    (stepped : state.runTool call other expired = some next) : Sound task next := by
  simp only [runTool] at stepped
  split at stepped
  · rename_i allowed
    cases stepped
    refine sound.setCall fun same late => ?_
    subst same
    refine ⟨late, .inr ⟨rfl, ?_⟩⟩
    rcases Bool.or_eq_true_iff.mp allowed with expired | executing
    · simp [sees, expired]
    · cases stands : state.stage other with
      | running job =>
          have unguarded : (state.stage other).guarded other = false := by
            rcases job with ⟨source, inTry, work⟩
            rw [stands] at executing ⊢
            cases work with
            | nil => cases executing
            | cons operation rest =>
                simp only [Stage.executing, List.head?_cons, Option.some.injEq,
                  decide_eq_true_eq] at executing
                subst executing
                rfl
          rcases sound.returned late with cancelled | ⟨_, behind⟩
          · rcases sound.agrees with ended | ⟨holds, _⟩ | ⟨_, fresh⟩
            · simp [stands] at ended
            · simp [sees, ← stands, holds, cancelled]
            · simp [fresh] at cancelled
          · rw [unguarded] at behind
            cases behind
      | _ => simp [stands, Stage.executing] at executing
  · cases stepped

theorem sound_advanceCall {call : Nat} {run : RunnerCall} (sound : Sound task state)
    (found : state.calls call = some run) (stepped : state.advanceCall call run = some next) :
    Sound task next := by
  have before := sound.calls call run found
  simp only [advanceCall] at stepped
  cases stands : run.phase with
  | begun =>
      simp only [stands, Option.some.injEq] at stepped
      subst stepped
      refine sound.setCall fun same late => ?_
      rcases before same late with ⟨done, refused | ⟨_, seen⟩⟩
      · simp [stands] at refused
      · exact ⟨done, .inl (by simp [seen])⟩
  | admitted =>
      simp only [stands, Option.some.injEq] at stepped
      subst stepped
      exact sound.setCall fun same late => by simpa [stands] using before same late
  | cleared =>
      simp only [stands, Option.some.injEq] at stepped
      subst stepped
      exact sound.setCall fun same late => by simpa [stands] using before same late
  | invoked => simp [stands] at stepped
  | refused => simp [stands] at stepped

theorem sound_refuse {call : Nat} {run : RunnerCall} (sound : Sound task state)
    (found : state.calls call = some run) (stepped : state.refuse call run = some next) :
    Sound task next := by
  simp only [refuse] at stepped
  split at stepped <;> cases stepped <;>
    exact sound.setCall fun same late => ⟨(sound.calls call run found same late).1, .inl rfl⟩

/-! ## Runs -/

theorem sound_start (maxQueued : Nat) (tables : Tables) (task : TaskId) :
    Sound task (start maxQueued tables) where
  agrees := by
    simp only [start]
    split
    · exact .inr (.inr ⟨rfl, rfl⟩)
    · split
      · exact .inl rfl
      · exact .inr (.inr ⟨rfl, rfl⟩)
  cancels := by simp [start]
  missed := by simp [start]
  returned := by simp [start]
  calls := by simp [start]

/-- One step of any thread. -/
theorem Sound.step {action : ServeAction} (sound : Sound task state)
    (heeds : state.Heeds task action) (stepped : Serving.step state action = some next) :
    Sound task next := by
  cases action with
  | create other =>
      simp only [Serving.step] at stepped
      split at stepped
      · rename_i stands
        cases stepped
        refine Carries.sound (carries_update sound.agrees (fun _ => id) rfl rfl
          (by simp [stands]) (.inr ⟨?_, ?_⟩) fun _ _ _ _ => rfl) sound rfl rfl rfl rfl
        · rw [stands]
          rfl
        · simp [stands, Stage.untokened]
      · cases stepped
  | startUp other resumable =>
      simp only [Serving.step] at stepped
      split at stepped
      · rename_i stands
        cases stepped
        cases resumable with
        | true =>
            rcases submit_frame state other .resumed with ⟨cancels, calls, missed, returned⟩
            exact (carries_submit sound.agrees (by simp [stands]) (by rw [stands]; rfl)
              (by simp [stands, Stage.untokened])).sound sound cancels calls missed returned
        | false =>
            refine Carries.sound (carries_update sound.agrees (fun _ => id) rfl rfl
              (by simp [stands]) (.inr ⟨?_, ?_⟩) fun _ _ _ _ => rfl) sound rfl rfl rfl rfl
            · rw [stands]
              rfl
            · simp [stands, Stage.untokened]
      · cases stepped
  | advance other finding =>
      rcases advance_aside stepped with ⟨cancels, calls, missed, returned⟩
      exact (carries_advance sound.agrees heeds.1 stepped).sound sound cancels calls missed
        returned
  | fail other =>
      rcases fail_aside stepped with ⟨cancels, calls, missed, returned⟩
      exact (carries_fail sound.agrees stepped).sound sound cancels calls missed returned
  | saveContext other current =>
      cases stepped
      have row : state.restsOnRow task = true → state.row task = some .cancelled →
          rowOf (state.database.write fun tables => { tables with
            contexts := Function.update tables.contexts other (some current) }) task =
              some .cancelled :=
        fun _ held => (rowOf_write_contexts state.database task _).trans held
      exact Carries.sound (.of_frame sound.agrees row rfl rfl) sound rfl rfl rfl rfl
  | cancel call other =>
      simp only [Serving.step] at stepped
      split at stepped
      · cases stepped
        exact {
          agrees := sound.agrees
          missed := sound.missed
          returned := sound.returned
          calls := sound.calls
          cancels := by
            intro known cancel found same
            rcases update_eq_some found with ⟨_, written⟩ | ⟨_, before⟩
            · cases written
              trivial
            · exact sound.cancels known cancel before same }
      · cases stepped
  | advanceCancel call =>
      rcases Option.bind_eq_some_iff.mp stepped with ⟨cancel, found, stepped⟩
      exact sound_advanceCancel sound found heeds stepped
  | failCancel call =>
      rcases Option.bind_eq_some_iff.mp stepped with ⟨cancel, found, stepped⟩
      exact sound_failCancel sound stepped
  | runTool call other expired =>
      simp only [Serving.step] at stepped
      split at stepped
      · exact sound_runTool sound stepped
      · cases stepped
  | advanceCall call =>
      rcases Option.bind_eq_some_iff.mp stepped with ⟨run, found, stepped⟩
      exact sound_advanceCall sound found stepped
  | expire call =>
      rcases Option.map_eq_some_iff.mp stepped with ⟨run, found, stepped⟩
      subst stepped
      refine sound.setCall fun same late => ?_
      rcases sound.calls call run found same late with ⟨done, refused | ⟨begun, _⟩⟩
      · exact ⟨done, .inl refused⟩
      · exact ⟨done, .inr ⟨begun, by simp [sees]⟩⟩
  | refuse call =>
      rcases Option.bind_eq_some_iff.mp stepped with ⟨run, found, stepped⟩
      exact sound_refuse sound found stepped

/-- Once `cancel_task` has returned, no call that begins invokes a handler: in every run in
which the row stays `CANCELLED` where the cancellation rests on it, and in which no job
without a token is past its last look at the row when `cancel_task` returns. -/
theorem effective_of_heeds {maxQueued : Nat} {tables : Tables} {task : TaskId}
    {actions : List ServeAction} {final : Serving}
    (heeds : StepFunction.Meets step (Heeds task) (start maxQueued tables) actions)
    (reached : StepFunction.run step (start maxQueued tables) actions = some final) :
    final.Effective task :=
  (StepFunction.invariant_of_meets (fun _ _ _ sound meets stepped => sound.step meets stepped)
    (sound_start maxQueued tables task) heeds reached).effective

/-- A call of `cancel_task` from its beginning to its return, on a task without a context. -/
def cancelling : List ServeAction := .cancel 0 "t" :: List.replicate 9 (.advanceCancel 0)

/-- A call of the runner from its beginning to its end. -/
def toolCall : List ServeAction :=
  [.runTool 0 "t" false, .advanceCall 0, .advanceCall 0, .advanceCall 0]

/-- The resumed job has found its task `EXECUTING` and is about to execute the plan. -/
def resumedJob : List ServeAction := .startUp "t" true :: List.replicate 4 (.advance "t" false)

theorem resumedTask_invokes_after_cancel :
    ∃ final, StepFunction.run step (start 0 Managing.executingTask)
        (resumedJob ++ cancelling ++ toolCall) = some final ∧
      ¬ final.Effective "t" :=
  ⟨_, rfl, fun effective => effective 0 _ rfl rfl rfl rfl⟩

/-- The same task is cancelled while its job waits in the queue: the job then finds it
`CANCELLED`. -/
theorem effective_while_queued :
    ∃ final, StepFunction.run step (start 0 Managing.executingTask)
        (.startUp "t" true :: cancelling ++ List.replicate 6 (.advance "t" false)) = some final ∧
      final.Effective "t" :=
  ⟨_, rfl, @effective_of_heeds 0 Managing.executingTask "t"
    (.startUp "t" true :: cancelling ++ List.replicate 6 (.advance "t" false)) _
    (by decide) rfl⟩

end Serving

end Raphael.Interface
