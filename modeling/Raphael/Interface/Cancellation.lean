import Raphael.Interface.Serving

/-! # Cancelling a task

A task is cancelled by its token, or else by its row, which the work on the task reads
before it executes a plan. The invariant follows both through all runs in which the row
stays `CANCELLED` where no token is found, and in which `cancel_task` does not return while
a job without a token is past its last look at the row. -/

namespace Raphael.Interface

open Core Foundation Persistence Raphael.Runtime

/-! ## Behind the next look at the row -/

/-- A transition of the task that has begun finds it cancelled, or it raises anyway. -/
def guardsMove (task : TaskId) : Phase → Bool
  | .entering other _ | .getting _ other _ => other = task
  | .updating _ other target _ => other = task && target != .cancelled
  | .loading _ _ _ | .saving _ _ _ | .leaving _ false => false
  | .leaving _ true => true

/-- The work reads the row before it executes a plan. -/
def guarded (task : TaskId) : List Operation → Bool
  | [] => true
  | operation :: rest =>
      match operation with
      | .execute | .attempts => false
      | .transition _ | .plan => true
      | .walkTo target => target != .cancelled || guarded task rest
      | .moving phase => guardsMove task phase || guarded task rest
      | .load | .checkCancelled | .research | .recover | .complete | .settle _ =>
          guarded task rest

namespace Stage

def guarded (task : TaskId) : Stage → Bool
  | .running job => Interface.guarded task job.work
  | _ => true

/-- A job that was given no token has the task. -/
def untokened : Stage → Bool
  | .queued source => source != .dispatched
  | .running job => job.source != .dispatched
  | _ => false

end Stage

/-- The next database call of a transition takes the task out of `CANCELLED`. -/
def takesOut (task : TaskId) (database : Database Tables) : Phase → Bool
  | .updating _ other target _ =>
      rowOf database task = some .cancelled && other = task && target != .cancelled
  | .leaving true true =>
      rowOf database task = some .cancelled &&
        database.connection.committed.tasks task != some .cancelled
  | _ => false

namespace Serving

/-- The phase of the transition, or of the creation, that the action moves on. -/
def moves (state : Serving) : ServeAction → Option Phase
  | .advance task _ =>
      match state.stage task with
      | .creating (.leaving outermost raised) => some (.leaving outermost raised)
      | .running job =>
          match job.work with
          | .moving phase :: _ => some phase
          | _ => none
      | _ => none
  | .advanceCancel call =>
      match state.cancels call with
      | some cancel =>
          match cancel.phase with
          | .moving phase => some phase
          | _ => none
      | none => none
  | _ => none

/-- The row is what a cancellation of the task rests on: its token is not there, or it has
been missed. -/
def restsOnRow (state : Serving) (task : TaskId) : Bool :=
  state.missed task || !((state.tokens task).registered || (state.tokens task).cancelled)

/-- The row of a task whose cancellation rests on it is taken out of `CANCELLED`. -/
def losesCancellation (state : Serving) (task : TaskId) (action : ServeAction) : Bool :=
  state.restsOnRow task && (state.moves action).any (takesOut task state.database)

/-- `cancel_task` returns while a job without a token is past its last look at the row. -/
def returnsUnguarded (state : Serving) (task : TaskId) : ServeAction → Bool
  | .advanceCancel call =>
      match state.cancels call with
      | some cancel => cancel.task = task && cancel.phase = .returning &&
          (state.stage task).untokened && !(state.stage task).guarded task
      | none => false
  | _ => false

def Heeds (task : TaskId) (state : Serving) (action : ServeAction) : Prop :=
  state.losesCancellation task action = false ∧ state.returnsUnguarded task action = false

instance (task : TaskId) (state : Serving) (action : ServeAction) :
    Decidable (state.Heeds task action) :=
  inferInstanceAs (Decidable (_ ∧ _))

/-- No call that began after a return of `cancel_task` has invoked a handler. -/
def Effective (state : Serving) (task : TaskId) : Prop :=
  ∀ call run, state.calls call = some run → run.task = task → run.late = true →
    run.phase ≠ .invoked

end Serving

/-! ## The row -/

theorem rowOf_write_contexts (database : Database Tables) (task : TaskId)
    (contexts : Tables → TaskId → Option TaskState) :
    rowOf (database.write fun tables => { tables with contexts := contexts tables }) task =
      rowOf database task := by
  simp [rowOf]

theorem moveOn_fst (database : Database Tables) (phase : Phase) :
    (moveOn database phase).1 = (Managing.advancePhase database phase).1 := by
  simp only [moveOn]
  split <;> rfl

/-- A row that is `CANCELLED` stays so. -/
theorem moveOn_row {database : Database Tables} {task : TaskId} {phase : Phase}
    (cancelled : rowOf database task = some .cancelled)
    (kept : takesOut task database phase = false) :
    rowOf (moveOn database phase).1 task = some .cancelled := by
  rw [moveOn_fst, ← cancelled]
  cases phase with
  | entering other target =>
      simp only [Managing.advancePhase]
      cases entry : database.enter with
      | error _ => rfl
      | ok entered => exact congrArg (Tables.tasks · task) (Database.enter_visible entry)
  | getting outermost other target =>
      simp only [Managing.advancePhase]
      split
      · rfl
      · split <;> rfl
  | updating outermost other target read =>
      simp only [Managing.advancePhase, rowOf, Database.write_connection,
        Connection.visible_write]
      by_cases same : task = other
      · subst same
        simp only [takesOut, cancelled, decide_true, Bool.true_and, bne_eq_false_iff_eq] at kept
        rw [Function.update_self, kept]
        exact cancelled.symm
      · rw [Function.update_of_ne same]
  | loading outermost other target =>
      simp only [Managing.advancePhase]
      split <;> rfl
  | saving outermost other target =>
      exact rowOf_write_contexts database task _
  | leaving outermost raised =>
      simp only [Managing.advancePhase, rowOf]
      by_cases rolledBack : raised = true ∧ outermost = true
      · rcases rolledBack with ⟨rfl, rfl⟩
        simp only [takesOut, cancelled, decide_true, Bool.true_and, bne_eq_false_iff_eq] at kept
        rw [Database.leave_rolledBack, kept]
        exact cancelled.symm
      · rw [Database.leave_visible database rolledBack]

theorem moveFails_row (database : Database Tables) (task : TaskId) (phase : Phase) :
    rowOf (moveFails database phase).1 task = rowOf database task := by
  cases phase <;> rfl

namespace Serving

theorem createOn_row {database : Database Tables} {task other : TaskId}
    {phase : CreationPhase} (cancelled : rowOf database task = some .cancelled)
    (kept : ∀ outermost raised, phase = .leaving outermost raised →
      takesOut task database (.leaving outermost raised) = false) :
    rowOf (createOn database other phase).1 task = some .cancelled := by
  cases phase with
  | entering =>
      simp only [createOn]
      cases entry : database.enter with
      | error _ => exact cancelled
      | ok entered =>
          exact (congrArg (Tables.tasks · task) (Database.enter_visible entry)).trans cancelled
  | inserting outermost =>
      simp only [createOn]
      cases found : rowOf database other with
      | some _ => exact cancelled
      | none =>
          have different : task ≠ other := by
            rintro rfl
            rw [cancelled] at found
            cases found
          simpa [rowOf, Function.update_of_ne different] using cancelled
  | saving outermost => exact (rowOf_write_contexts database task _).trans cancelled
  | leaving outermost raised =>
      have left := moveOn_row cancelled (kept outermost raised rfl)
      rwa [moveOn_fst] at left

theorem createFails_row (database : Database Tables) (task : TaskId) (phase : CreationPhase) :
    rowOf (createFails database phase).1 task = rowOf database task := by
  cases phase <;> rfl

end Serving

namespace Job

theorem perform_row {finding cancelled : Bool} {database : Database Tables}
    {task other : TaskId} {job : Job} {rest : List Operation} {operation : Operation}
    (row : rowOf database task = some .cancelled)
    (kept : ∀ phase, operation = .moving phase → takesOut task database phase = false) :
    rowOf (job.perform finding cancelled database other rest operation).1 task =
      some .cancelled := by
  cases operation with
  | moving phase => exact moveOn_row row (kept phase rfl)
  | _ => exact row

theorem fails_row (cancelled : Bool) (database : Database Tables) (task : TaskId) (job : Job)
    (rest : List Operation) (operation : Operation) :
    rowOf (job.fails cancelled database rest operation).1 task = rowOf database task := by
  cases operation with
  | moving phase => exact moveFails_row database task phase
  | _ => rfl

/-! ## The work -/

@[simp] theorem source_raised (cancelled : Bool) (job : Job) :
    (job.raised cancelled).source = job.source := by
  simp only [raised]
  split <;> rfl

@[simp] theorem source_after (cancelled : Bool) (rest : List Operation) (job : Job)
    (moved : Moved) : (job.after cancelled rest moved).source = job.source := by
  cases moved <;> simp [after]

@[simp] theorem source_reading (database : Database Tables) (task : TaskId)
    (cancelled : Bool) (job : Job) (work : TaskState → List Operation) :
    (job.reading database task cancelled work).source = job.source := by
  simp only [reading]
  split <;> simp

theorem source_perform (finding cancelled : Bool) (database : Database Tables)
    (task : TaskId) (job : Job) (rest : List Operation) (operation : Operation) :
    (job.perform finding cancelled database task rest operation).2.source = job.source := by
  cases operation <;> simp only [perform, source_reading, source_after]
  · split <;> simp
  · split <;> simp

theorem source_fails (cancelled : Bool) (database : Database Tables) (job : Job)
    (rest : List Operation) (operation : Operation) :
    (job.fails cancelled database rest operation).2.source = job.source := by
  cases operation <;> simp [fails]

/-- A job whose exception is handled has nothing more to execute. -/
theorem guarded_raised (task : TaskId) (cancelled : Bool) (job : Job) :
    guarded task (job.raised cancelled).work = true := by
  simp only [raised]
  split <;> rfl

end Job

namespace Job

/-- What is left behind a transition that reads the row or raises. -/
theorem guarded_moveOn {task : TaskId} {cancelled : Bool} {database : Database Tables}
    {job : Job} {rest : List Operation} {phase : Phase}
    (row : rowOf database task = some .cancelled)
    (kept : takesOut task database phase = false)
    (behind : guarded task (.moving phase :: rest) = true) :
    guarded task (job.after cancelled rest (moveOn database phase).2).work = true := by
  by_cases later : guarded task rest = true
  · cases (moveOn database phase).2 with
    | going next => simp [after, guarded, later]
    | returned => exact later
    | raised => exact guarded_raised task cancelled job
  · simp only [guarded, later, Bool.or_false] at behind
    cases phase with
    | entering other target =>
        obtain rfl : other = task := by simpa [guardsMove] using behind
        simp only [moveOn, Managing.advancePhase]
        cases database.enter with
        | error _ => exact guarded_raised other cancelled job
        | ok entered => simp [after, guarded, guardsMove]
    | getting outermost other target =>
        -- The transition out of `CANCELLED` is refused.
        obtain rfl : other = task := by simpa [guardsMove] using behind
        have found : database.connection.visible.tasks other = some .cancelled := row
        have refused : ∃ error, assertTransition .cancelled target = .error error :=
          ⟨_, by simp [assertTransition, isValidTransition_of_terminal (show
            isTerminal .cancelled = true from rfl)]; rfl⟩
        rcases refused with ⟨error, refused⟩
        simp [moveOn, Managing.advancePhase, found, refused, after, guarded, guardsMove]
    | updating outermost other target read =>
        simp_all [guardsMove, takesOut]
    | loading outermost other target => cases behind
    | saving outermost other target => cases behind
    | leaving outermost raised =>
        cases raised with
        | false => cases behind
        | true => exact guarded_raised task cancelled job

theorem guarded_moveFails {task : TaskId} {cancelled : Bool} {database : Database Tables}
    {job : Job} {rest : List Operation} (phase : Phase) :
    guarded task (job.after cancelled rest (moveFails database phase).2).work = true := by
  cases phase with
  | entering _ _ => exact guarded_raised task cancelled job
  | leaving _ _ => exact guarded_raised task cancelled job
  | _ => rfl

/-- While the row is `CANCELLED`, no operation leads past the looks at it. -/
theorem guarded_perform {finding cancelled : Bool} {database : Database Tables}
    {task : TaskId} {job : Job} {rest : List Operation} {operation : Operation}
    (row : rowOf database task = some .cancelled)
    (kept : ∀ phase, operation = .moving phase → takesOut task database phase = false)
    (behind : guarded task (operation :: rest) = true) :
    guarded task (job.perform finding cancelled database task rest operation).2.work = true := by
  cases operation with
  | load =>
      simp only [perform, row]
      exact behind
  | checkCancelled =>
      simp only [perform]
      split
      · exact guarded_raised task cancelled job
      · exact behind
  | transition target => simp [perform, guarded, guardsMove]
  | moving phase => exact guarded_moveOn row (kept phase rfl) behind
  | research =>
      cases finding with
      | true => rfl
      | false => exact behind
  | plan =>
      simp only [perform, reading, row]
      rfl
  | walkTo target =>
      simp only [perform, reading, row]
      by_cases there : TaskState.cancelled = target
      · subst there
        simpa [guarded] using behind
      · have unlisted : Agent.Orchestrator.walkPath .cancelled target = none := by
          cases target <;> rfl
        rw [if_neg there, unlisted]
        rfl
  | execute => cases behind
  | recover =>
      cases finding with
      | true => rfl
      | false => exact behind
  | attempts => cases behind
  | complete =>
      simp only [perform, row, if_true]
      exact behind
  | settle target =>
      simp only [perform, row]
      exact behind

theorem guarded_fails {task : TaskId} {cancelled : Bool} {database : Database Tables}
    {job : Job} {rest : List Operation} (operation : Operation) :
    guarded task (job.fails cancelled database rest operation).2.work = true := by
  cases operation with
  | moving phase => exact guarded_moveFails phase
  | _ => exact guarded_raised task cancelled job

theorem guarded_ofSource (task : TaskId) (source : Source) :
    guarded task (ofSource source).work = true := by
  cases source <;> rfl

end Job

/-! ## The invariant -/

/-- A stage and the token of its task. -/
def Stage.Agrees (stage : Stage) (token : Token) : Prop :=
  stage = .ended ∨ (stage.holdsToken = true ∧ token.registered = true) ∨
    (stage.holdsToken = false ∧ token = {})

namespace Serving

/-- The cancellation of the task cannot be missed any more. -/
def Held (state : Serving) (task : TaskId) : Prop :=
  state.row task = some .cancelled ∨ (state.tokens task).registered = true ∨
    state.stage task = .ended

/-- What a call of `cancel_task` has reached. -/
def Backs (state : Serving) (task : TaskId) : CancelPhase → Prop
  | .moving (.entering other target) => other = task ∧ target = .cancelled
  | .moving (.getting _ other target) => other = task ∧ target = .cancelled
  | .moving (.updating _ other target _) => other = task ∧ target = .cancelled
  | .moving (.loading _ _ _) | .moving (.saving _ _ _) | .moving (.leaving _ false) =>
      state.Held task
  | .hooking => state.Held task
  | .looked true => (state.tokens task).registered = true ∨ state.stage task = .ended
  | .looked false => state.missed task = true
  | .returning => (state.tokens task).cancelled = true ∨ state.missed task = true
  | _ => True

structure Sound (task : TaskId) (state : Serving) : Prop where
  agrees : (state.stage task).Agrees (state.tokens task)
  cancels : ∀ call cancel, state.cancels call = some cancel → cancel.task = task →
    state.Backs task cancel.phase
  missed : state.missed task = true → state.stage task = .ended ∨
    (state.row task = some .cancelled ∧
      ((state.stage task).guarded task = true ∨ (state.stage task).untokened = true))
  returned : state.cancelReturned task = true → (state.tokens task).cancelled = true ∨
    (state.missed task = true ∧ (state.stage task).guarded task = true)
  calls : ∀ call run, state.calls call = some run → run.task = task → run.late = true →
    state.cancelReturned task = true ∧
      (run.phase = .refused ∨ (run.phase = .begun ∧ state.sees run = true))

theorem Sound.effective {task : TaskId} {state : Serving} (sound : Sound task state) :
    state.Effective task := by
  intro call run found same late invoked
  rcases (sound.calls call run found same late).2 with refused | ⟨begun, _⟩
  · rw [invoked] at refused
    cases refused
  · rw [invoked] at begun
    cases begun

/-- What every step leaves of a task. -/
structure Carries (task : TaskId) (before after : Serving) : Prop where
  row : before.restsOnRow task = true → before.row task = some .cancelled →
    after.row task = some .cancelled
  agrees : (after.stage task).Agrees (after.tokens task)
  guarded : before.restsOnRow task = true → before.row task = some .cancelled →
    (before.stage task).guarded task = true → (after.stage task).guarded task = true
  untokened : (before.stage task).untokened = true →
    (after.stage task).untokened = true ∨ after.stage task = .ended
  registered : (before.tokens task).registered = true →
    (after.tokens task).registered = true ∨ after.stage task = .ended
  cancelled : (before.tokens task).cancelled = true → (after.tokens task).cancelled = true
  ended : before.stage task = .ended → after.stage task = .ended

namespace Carries

variable {task : TaskId} {before after : Serving}

theorem held (carries : Carries task before after)
    (agrees : (before.stage task).Agrees (before.tokens task)) (held : before.Held task) :
    after.Held task := by
  rcases held with row | registered | ended
  · by_cases rests : before.restsOnRow task = true
    · exact .inl (carries.row rests row)
    · -- The token is there, or it was cancelled and the task has ended.
      simp only [restsOnRow, Bool.or_eq_true, Bool.not_eq_true', not_or] at rests
      by_cases registered : (before.tokens task).registered = true
      · exact .inr (carries.registered registered)
      · rcases agrees with ended | ⟨_, holds⟩ | ⟨_, none⟩
        · exact .inr (.inr (carries.ended ended))
        · exact absurd holds registered
        · simp [none] at rests
  · exact .inr (carries.registered registered)
  · exact .inr (.inr (carries.ended ended))

theorem backs (carries : Carries task before after)
    (agrees : (before.stage task).Agrees (before.tokens task))
    (missed : before.missed task = true → after.missed task = true) {phase : CancelPhase}
    (backs : before.Backs task phase) : after.Backs task phase := by
  cases phase with
  | moving phase =>
      cases phase with
      | entering other target => exact backs
      | getting outermost other target => exact backs
      | updating outermost other target read => exact backs
      | loading outermost other target => exact carries.held agrees backs
      | saving outermost other target => exact carries.held agrees backs
      | leaving outermost raised =>
          cases raised with
          | false => exact carries.held agrees backs
          | true => exact backs
  | hooking => exact carries.held agrees backs
  | looked found =>
      cases found with
      | true =>
          rcases backs with registered | ended
          · exact carries.registered registered
          · exact .inr (carries.ended ended)
      | false => exact missed backs
  | returning => exact backs.imp carries.cancelled missed
  | requiring => trivial
  | returned => trivial
  | raised => trivial

theorem missed (carries : Carries task before after) (sound : Sound task before)
    (missed : before.missed task = true) : after.stage task = .ended ∨
      (after.row task = some .cancelled ∧ ((after.stage task).guarded task = true ∨
        (after.stage task).untokened = true)) := by
  have rests : before.restsOnRow task = true := by simp [restsOnRow, missed]
  rcases sound.missed missed with ended | ⟨row, guarded | untokened⟩
  · exact .inl (carries.ended ended)
  · exact .inr ⟨carries.row rests row, .inl (carries.guarded rests row guarded)⟩
  · rcases carries.untokened untokened with still | ended
    · exact .inr ⟨carries.row rests row, .inr still⟩
    · exact .inl ended

/-- A task whose token was missed stays behind the looks at its row. -/
theorem guarded_of_missed (carries : Carries task before after) (sound : Sound task before)
    (missed : before.missed task = true) (guarded : (before.stage task).guarded task = true) :
    (after.stage task).guarded task = true := by
  have rests : before.restsOnRow task = true := by simp [restsOnRow, missed]
  rcases sound.missed missed with ended | ⟨row, _⟩
  · rw [carries.ended ended]
    rfl
  · exact carries.guarded rests row guarded

theorem sees (carries : Carries task before after) {run : RunnerCall}
    (same : run.task = task) (sees : before.sees run = true) : after.sees run = true := by
  simp only [Serving.sees, same, Bool.or_eq_true, Bool.and_eq_true] at sees ⊢
  exact sees.imp_right fun ⟨has, cancelled⟩ => ⟨has, carries.cancelled cancelled⟩

/-- A step of anyone but the calls keeps the invariant. -/
theorem sound (carries : Carries task before after) (sound : Sound task before)
    (cancels : after.cancels = before.cancels) (calls : after.calls = before.calls)
    (missed : after.missed = before.missed)
    (returned : after.cancelReturned = before.cancelReturned) : Sound task after where
  agrees := carries.agrees
  cancels := by
    intro call cancel found same
    rw [cancels] at found
    exact carries.backs sound.agrees (by rw [missed]; exact id)
      (sound.cancels call cancel found same)
  missed := by
    rw [missed]
    exact carries.missed sound
  returned := by
    rw [returned, missed]
    intro done
    rcases sound.returned done with cancelled | ⟨lost, guarded⟩
    · exact .inl (carries.cancelled cancelled)
    · exact .inr ⟨lost, carries.guarded_of_missed sound lost guarded⟩
  calls := by
    rw [calls, returned]
    intro call run found same late
    rcases sound.calls call run found same late with ⟨done, refused | ⟨begun, seen⟩⟩
    · exact ⟨done, .inl refused⟩
    · exact ⟨done, .inr ⟨begun, carries.sees same seen⟩⟩

end Carries

end Serving

end Raphael.Interface
