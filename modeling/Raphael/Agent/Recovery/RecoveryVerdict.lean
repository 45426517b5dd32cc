import Raphael.Agent.Recovery.RecoveryEngine

/-! # The bound and the verdict of a recovery

The loop ends after at most one turn for each attempt and one more, and says
RECOVERED of exactly the recoveries whose last execution was complete and verified. -/

namespace Raphael.Agent.Recovery

open Core
open Agent.Executor

/-! ## What has been observed -/

def Observation.isExecution : Observation → Bool
  | .executed _ _ => true
  | .verified _ _ _ => false
  | .replanned _ => false

/-- The calls of `execute_fn`, those that raised included. -/
def executionsIn (trace : List Observation) : Nat := trace.countP Observation.isExecution

/-- An execution, with its own verification once it has one. -/
abbrev Cycle := ExecutionResult × Option VerificationResult

/-- The last cycle, behind one more observation. -/
def nextCycle (last : Option Cycle) : Observation → Option Cycle
  | .executed _ (.ok result) => some (result, none)
  | .executed _ (.error _) => none
  | .verified _ _ (.ok verification) => last.map fun cycle => (cycle.1, some verification)
  | .verified _ _ (.error _) => last
  | .replanned _ => last

/-- The last execution and its own verification; at first the prior one, if any. -/
def lastCycle (prior : Option Cycle) (trace : List Observation) : Option Cycle :=
  trace.foldl nextCycle prior

/-- The execution is COMPLETED and its own verification PASSED. -/
def Passed (last : Option Cycle) : Prop :=
  ∃ result verification, last = some (result, some verification) ∧
    result.status = .completed ∧ verification.status = .passed

/-- The exception is that of the last call of `execute_fn` or of the planner. -/
def RaisedLast (trace : List Observation) (error : Error) : Prop :=
  (∃ plan, trace.getLast? = some (.executed plan (.error error))) ∨
    trace.getLast? = some (.replanned (.error error))

@[simp] theorem executionsIn_append (trace : List Observation) (last : Observation) :
    executionsIn (trace ++ [last]) =
      executionsIn trace + if last.isExecution then 1 else 0 := by
  simp [executionsIn, List.countP_append, List.countP_cons]

@[simp] theorem lastCycle_append (prior : Option Cycle) (trace : List Observation)
    (last : Observation) :
    lastCycle prior (trace ++ [last]) = nextCycle (lastCycle prior trace) last := by
  simp [lastCycle]

theorem passed_iff {result : ExecutionResult} {verification : VerificationResult} :
    Passed (some (result, some verification)) ↔
      RecoveryRun.passes result verification = true := by
  constructor
  · rintro ⟨_, _, same, completed, passed⟩
    cases same
    simp [RecoveryRun.passes, completed, passed]
  · intro passes
    simp only [RecoveryRun.passes, Bool.and_eq_true, beq_iff_eq] at passes
    exact ⟨result, verification, rfl, passes.1, passes.2⟩

theorem not_passed_unverified (result : ExecutionResult) :
    ¬ Passed (some (result, none)) := by
  rintro ⟨_, _, same, _⟩
  cases same

namespace RecoveryRun

variable {World : Type u} {run : RecoveryRun World} {prior : Option Cycle}
  {loop next : RecoveryLoop World}

/-! ## The invariant of the loop -/

/-- The prior execution counts as one. -/
def priorCount (prior : Option Cycle) : Nat := if prior.isSome then 1 else 0

/-- Between two turns, and inside one. -/
structure Sound (run : RecoveryRun World) (prior : Option Cycle)
    (loop : RecoveryLoop World) : Prop where
  counted : loop.executions = executionsIn loop.trace + priorCount prior
  bounded : executionsIn loop.trace ≤ run.maxAttempts - priorCount prior
  standing : ∀ result, loop.result = some result →
    lastCycle prior loop.trace = some (result, loop.verification)
  waiting : loop.result = none → ¬ Passed (lastCycle prior loop.trace)
  replanned : loop.replans + (if loop.result.isSome then 1 else 0) ≤ loop.executions
  distinct : loop.versions.Nodup
  known : ∀ version ∈ loop.versions, version ∈ loop.seen

/-- What holds when the loop has ended. -/
structure Verdict (run : RecoveryRun World) (prior : Option Cycle)
    (answer : Except Error RecoveryOutcome) (final : RecoveryLoop World) : Prop where
  bounded : executionsIn final.trace ≤ run.maxAttempts - priorCount prior
  replanned : final.replans ≤ executionsIn final.trace + priorCount prior
  raised : ∀ error, answer = .error error → RaisedLast final.trace error
  reported : ∀ outcome, answer = .ok outcome →
    outcome.replans = final.replans ∧ outcome.planVersions.Nodup ∧
      (outcome.status = .recovered ↔ Passed (lastCycle prior final.trace))

/-- The turns that are left, one more apart. -/
def remaining (run : RecoveryRun World) (loop : RecoveryLoop World) : Nat :=
  (run.maxAttempts - loop.executions) + if loop.result.isSome then 1 else 0

/-- A turn ends with a verdict, or leaves a sound loop with less to do. -/
def Progress (run : RecoveryRun World) (prior : Option Cycle) (left : Nat) :
    RecoveryTurn World → Prop
  | .ended answer final => Verdict run prior answer final
  | .goesOn next => Sound run prior next ∧ run.remaining next < left

theorem Sound.verdict (sound : Sound run prior loop) {status : OutcomeStatus}
    {reason : String}
    (judged : status = .recovered ↔ Passed (lastCycle prior loop.trace)) (left : Nat) :
    Progress run prior left (run.ends loop status reason) := by
  have counted := sound.counted
  have replanned := sound.replanned
  constructor
  · exact sound.bounded
  · omega
  · intro error raised
    cases raised
  · intro outcome returned
    cases returned
    exact ⟨rfl, sound.distinct, judged⟩

/-- Every other ending is of a recovery whose last cycle did not pass. -/
theorem Sound.verdict_unrecovered (sound : Sound run prior loop) {status : OutcomeStatus}
    {reason : String} (different : status ≠ .recovered)
    (failing : ¬ Passed (lastCycle prior loop.trace)) (left : Nat) :
    Progress run prior left (run.ends loop status reason) := by
  apply sound.verdict
  exact ⟨fun recovered => absurd recovered different,
    fun passed => absurd passed failing⟩

/-- Records, events and escalations play no part. -/
theorem Sound.record (sound : Sound run prior loop) (record : RecoveryRecord) :
    Sound run prior (run.record loop record) :=
  ⟨sound.counted, sound.bounded, sound.standing, sound.waiting, sound.replanned,
    sound.distinct, sound.known⟩

theorem Sound.escalate (sound : Sound run prior loop) (reason : String)
    (evidence : List String) : Sound run prior (run.escalate loop reason evidence) :=
  ⟨sound.counted, sound.bounded, sound.standing, sound.waiting, sound.replanned,
    sound.distinct, sound.known⟩

/-- Another turn with the execution put aside, after `retries` and `replans`. -/
theorem Sound.again (sound : Sound run prior loop) {result : ExecutionResult}
    (standing : loop.result = some result)
    (failing : ¬ Passed (lastCycle prior loop.trace)) (retries : Nat) :
    Progress run prior (run.remaining loop)
      (.goesOn (RecoveryRun.again { loop with retries })) := by
  have replanned := sound.replanned
  simp only [standing, Option.isSome_some, if_true] at replanned
  constructor
  · constructor
    · exact sound.counted
    · exact sound.bounded
    · intro result absent
      cases absent
    · intro _
      exact failing
    · simp only [RecoveryRun.again, Option.isSome_none, Bool.false_eq_true, if_false]
      omega
    · exact sound.distinct
    · exact sound.known
  · simp only [remaining, RecoveryRun.again, standing, Option.isSome_none,
      Option.isSome_some, Bool.false_eq_true, if_false, if_true]
    omega

/-- Asking the planner is not an execution, and ends no cycle. -/
theorem Sound.asked (sound : Sound run prior loop) (answer : Except Error Plan)
    (world : World) :
    Sound run prior { loop with
      world
      trace := loop.trace ++ [.replanned answer] } := by
  constructor
  · rw [executionsIn_append]
    exact sound.counted
  · rw [executionsIn_append]
    exact sound.bounded
  · rw [lastCycle_append]
    exact sound.standing
  · rw [lastCycle_append]
    exact sound.waiting
  · exact sound.replanned
  · exact sound.distinct
  · exact sound.known

/-! ## The turns -/

theorem replan_progress (sound : Sound run prior loop) {result : ExecutionResult}
    (standing : loop.result = some result)
    (failing : ¬ Passed (lastCycle prior loop.trace)) (classification : Classification)
    (verification : VerificationResult) :
    Progress run prior (run.remaining loop)
      (run.replan loop classification verification) := by
  unfold replan
  cases hasPlanner : run.engine.planner with
  | none =>
      apply sound.verdict_unrecovered
      · decide
      · exact failing
  | some planner =>
      dsimp only
      cases asked : planner.requestReplan run.externals.platform run.externals.identity
          run.taskId loop.current classification.detail loop.seen loop.world with
      | mk answer world =>
          have soundAsked := sound.asked answer world
          have failingAsked : ¬ Passed (lastCycle prior (loop.trace ++ [.replanned answer])) := by
            rw [lastCycle_append]
            exact failing
          cases answer with
          | error error =>
              have rejected : ∀ reason audit, Progress run prior (run.remaining loop)
                  (run.ends { loop with
                    world
                    trace := loop.trace ++ [.replanned (.error error)]
                    audit } .failed reason) := by
                intro reason audit
                apply Sound.verdict_unrecovered
                · exact ⟨soundAsked.counted, soundAsked.bounded, soundAsked.standing,
                    soundAsked.waiting, soundAsked.replanned, soundAsked.distinct,
                    soundAsked.known⟩
                · decide
                · exact failingAsked
              have propagated : Progress run prior (run.remaining loop)
                  (.ended (.error error) { loop with
                    world
                    trace := loop.trace ++ [.replanned (.error error)] }) := by
                have counted := soundAsked.counted
                have replanned := soundAsked.replanned
                constructor
                · exact soundAsked.bounded
                · omega
                · intro other same
                  cases same
                  exact .inr (by simp)
                · intro outcome same
                  cases same
              cases error with
              | planValidation message => exact rejected _ _
              | authorizationDenied taskId tool reason => exact rejected _ _
              | domainValidation message => exact propagated
              | toolExecution message => exact propagated
              | toolTimeout message => exact propagated
              | model message => exact propagated
              | cancelled message => exact propagated
              | other message => exact propagated
          | ok candidate =>
              have fresh := planner.requestReplan_fresh run.externals.platform
                run.externals.identity asked
              have again := soundAsked.again standing failingAsked loop.retries
              have replanned := sound.replanned
              simp only [standing, Option.isSome_some, if_true] at replanned
              refine ⟨⟨again.1.counted, again.1.bounded, again.1.standing, again.1.waiting,
                ?_, ?_, ?_⟩, again.2⟩
              · simpa [RecoveryRun.again] using replanned
              · apply List.nodup_append.mpr
                refine ⟨sound.distinct, List.nodup_singleton _, ?_⟩
                intro version tried other new same
                rw [List.mem_singleton] at new
                exact fresh (sound.known _ (new ▸ same ▸ tried))
              · intro version tried
                rcases List.mem_append.mp tried with before | new
                · exact List.mem_cons_of_mem _ (sound.known version before)
                · rw [List.mem_singleton.mp new]
                  exact List.mem_cons_self

theorem decide_progress (sound : Sound run prior loop) {result : ExecutionResult}
    {verification : VerificationResult} (standing : loop.result = some result)
    (verified : loop.verification = some verification) :
    Progress run prior (run.remaining loop) (run.decide loop result verification) := by
  have last : lastCycle prior loop.trace = some (result, some verification) := by
    rw [sound.standing result standing, verified]
  unfold decide
  cases passes : RecoveryRun.passes result verification with
  | true =>
      rw [if_pos rfl]
      apply sound.verdict
      rw [last, passed_iff]
      simp [passes]
  | false =>
      have failing : ¬ Passed (lastCycle prior loop.trace) := by
        rw [last, passed_iff, passes]
        decide
      simp only [Bool.false_eq_true, if_false]
      split
      · exact (sound.record _).again standing failing _
      · exact replan_progress (sound.record _) standing failing _ _
      · apply (sound.record _).verdict_unrecovered
        · decide
        · exact failing
      · apply ((sound.record _).escalate _ _).verdict_unrecovered
        · decide
        · exact failing
      · apply (sound.record _).verdict_unrecovered
        · decide
        · exact failing

/-- A verification belongs to the execution that stands. -/
theorem Sound.verified (sound : Sound run prior loop) {result : ExecutionResult}
    (standing : loop.result = some result) (verification : VerificationResult)
    (world : World) :
    Sound run prior { loop with
      world
      trace := loop.trace ++ [.verified loop.current result (.ok verification)]
      verification := some verification } := by
  constructor
  · rw [executionsIn_append]
    exact sound.counted
  · rw [executionsIn_append]
    exact sound.bounded
  · intro other same
    cases standing.symm.trans same
    rw [lastCycle_append, sound.standing result standing]
    rfl
  · intro absent
    cases standing.symm.trans absent
  · exact sound.replanned
  · exact sound.distinct
  · exact sound.known

/-- A verification that raises leaves the execution unverified. -/
theorem Sound.unverified (sound : Sound run prior loop)
    (unverified : loop.verification = none) (result : ExecutionResult) (error : Error)
    (world : World) :
    Sound run prior { loop with
      world
      trace := loop.trace ++ [.verified loop.current result (.error error)]
      verification := none } := by
  constructor
  · rw [executionsIn_append]
    exact sound.counted
  · rw [executionsIn_append]
    exact sound.bounded
  · rw [lastCycle_append, ← unverified]
    exact sound.standing
  · rw [lastCycle_append]
    exact sound.waiting
  · exact sound.replanned
  · exact sound.distinct
  · exact sound.known

theorem verify_progress (sound : Sound run prior loop) {result : ExecutionResult}
    (standing : loop.result = some result) :
    Progress run prior (run.remaining loop) (run.verify loop result) := by
  unfold verify
  cases verified : loop.verification with
  | some verification => exact decide_progress sound standing verified
  | none =>
      have last : lastCycle prior loop.trace = some (result, none) := by
        rw [sound.standing result standing, verified]
      generalize run.calls.verifyFn run.taskId loop.current result loop.world = asked
      rcases asked with ⟨answer, world⟩
      cases answer with
      | error error =>
          dsimp only [giveUp]
          apply ((sound.unverified verified result error world).record _).verdict_unrecovered
          · decide
          · change ¬ Passed (lastCycle prior (loop.trace ++ [_]))
            rw [lastCycle_append, last]
            exact not_passed_unverified result
      | ok verification =>
          exact decide_progress (sound.verified standing verification world) standing rfl

/-- The state behind an execution. -/
theorem Sound.executed (sound : Sound run prior loop) (absent : loop.result = none)
    (budget : loop.executions < run.maxAttempts) (result : ExecutionResult)
    (world : World) :
    Sound run prior { loop with
      world
      trace := loop.trace ++ [.executed loop.current (.ok result)]
      result := some result
      executions := loop.executions + 1
      verification := none } := by
  have counted := sound.counted
  have replanned := sound.replanned
  simp only [absent, Option.isSome_none, Bool.false_eq_true, if_false] at replanned
  constructor
  · simp only [executionsIn_append, Observation.isExecution, if_true]
    omega
  · simp only [executionsIn_append, Observation.isExecution, if_true]
    omega
  · intro other same
    cases same
    rw [lastCycle_append]
    rfl
  · intro none
    cases none
  · simp only [Option.isSome_some, if_true]
    omega
  · exact sound.distinct
  · exact sound.known

theorem turn_progress (sound : Sound run prior loop) :
    Progress run prior (run.remaining loop) (run.turn loop) := by
  unfold turn
  cases standing : loop.result with
  | some result => exact verify_progress sound standing
  | none =>
      generalize run.calls.executeFn loop.current run.arguments loop.world = asked
      rcases asked with ⟨answer, world⟩
      dsimp only
      split
      · apply sound.verdict_unrecovered
        · decide
        · exact sound.waiting standing
      · next budget =>
          have within : loop.executions < run.maxAttempts := by omega
          cases answer with
          | error error =>
              have counted := sound.counted
              have replanned := sound.replanned
              constructor
              · simp only [executionsIn_append, Observation.isExecution, if_true]
                omega
              · simp only [executionsIn_append, Observation.isExecution, if_true]
                omega
              · intro other same
                cases same
                exact .inl ⟨loop.current, by simp⟩
              · intro outcome same
                cases same
          | ok result =>
              have executed := sound.executed standing within result world
              have less : run.remaining { loop with
                  world
                  trace := loop.trace ++ [.executed loop.current (.ok result)]
                  result := some result
                  executions := loop.executions + 1
                  verification := none } = run.remaining loop := by
                simp only [remaining, standing, Option.isSome_some, Option.isSome_none,
                  Bool.false_eq_true, if_true, if_false]
                omega
              dsimp only
              split
              · apply executed.verdict_unrecovered
                · decide
                · change ¬ Passed (lastCycle prior (loop.trace ++ [_]))
                  rw [lastCycle_append]
                  exact not_passed_unverified result
              · rw [← less]
                exact verify_progress executed rfl

/-- Enough turns end the loop, and more turns change nothing. -/
theorem loopFor_ends {bound : Nat} (sound : Sound run prior loop)
    (enough : run.remaining loop ≤ bound) :
    ∃ answer final, Verdict run prior answer final ∧
      ∀ turns, bound < turns → run.loopFor turns loop = some (answer, final) := by
  induction bound using Nat.strong_induction_on generalizing loop with
  | _ bound induction =>
      have progress := turn_progress sound
      cases turned : run.turn loop with
      | ended answer final =>
          rw [turned] at progress
          exact ⟨answer, final, progress, fun turns more =>
            loopFor_of_ended turned (Nat.zero_lt_of_lt more)⟩
      | goesOn next =>
          rw [turned] at progress
          have less : run.remaining next < run.remaining loop := progress.2
          rcases induction (run.remaining next) (by omega) progress.1 le_rfl with
            ⟨answer, final, verdict, ends⟩
          refine ⟨answer, final, verdict, fun turns more => ?_⟩
          cases turns with
          | zero => omega
          | succ turns =>
              rw [loopFor_of_goesOn turned]
              exact ends turns (by omega)

/-! ## The whole call -/

/-- The prior execution and its verification. -/
def priorCycle (priorResult : Option ExecutionResult)
    (priorVerification : Option VerificationResult) : Option Cycle :=
  priorResult.map fun result => (result, priorVerification)

theorem start_sound (run : RecoveryRun World) (plan : Plan)
    (priorResult : Option ExecutionResult) (priorVerification : Option VerificationResult)
    (world : World) :
    Sound run (priorCycle priorResult priorVerification)
      (run.start plan priorResult priorVerification world) := by
  constructor
  · cases priorResult <;> rfl
  · exact Nat.zero_le _
  · intro result standing
    cases priorResult with
    | none => cases standing
    | some prior =>
        cases standing
        rfl
  · intro absent
    cases priorResult with
    | none =>
        rintro ⟨_, _, same, _⟩
        cases same
    | some prior => cases absent
  · cases priorResult <;> simp [start]
  · exact List.nodup_singleton _
  · exact fun version member => member

/-- After enough turns the call has ended, with its verdict. -/
theorem runWithPrior_ends (run : RecoveryRun World) (plan : Plan)
    (priorResult : Option ExecutionResult) (priorVerification : Option VerificationResult)
    (world : World) :
    ∃ answer final,
      Verdict run (priorCycle priorResult priorVerification) answer final ∧
      ∀ turns, run.maxAttempts + 1 < turns →
        run.runWithPrior turns plan priorResult priorVerification world =
          some (answer, final) := by
  have sound := start_sound run plan priorResult priorVerification world
  have looping : ∃ answer final,
      Verdict run (priorCycle priorResult priorVerification) answer final ∧
      ∀ turns, run.maxAttempts + 1 < turns → run.loopFor turns
        (run.start plan priorResult priorVerification world) = some (answer, final) := by
    apply loopFor_ends sound
    cases priorResult with
    | none => simp [remaining, start]
    | some prior =>
        simp only [remaining, start, Option.isSome_some, if_true]
        omega
  unfold runWithPrior
  split
  · next result verification =>
      split
      · next passes =>
          have judged : OutcomeStatus.recovered = .recovered ↔
              Passed (some (result, some verification)) :=
            ⟨fun _ => passed_iff.mpr passes, fun _ => rfl⟩
          have passed := @Sound.verdict _ _ _ _ sound _ "verification passed" judged 0
          refine ⟨_, _, ?_, fun turns more => rfl⟩
          constructor
          · exact passed.bounded
          · exact passed.replanned
          · intro error same
            cases same
          · intro outcome same
            cases same
            -- Only the number of attempts is not that of the loop.
            have reported := passed.reported _ rfl
            exact reported
      · exact looping
  · exact looping

/-- Whatever the callables and the planner do, a recovery ends: it returns an outcome
or propagates an exception of `execute_fn` or of the planner. It executes at most
`max_attempts` times, the prior execution included, replans at most once for each
execution, says RECOVERED exactly if the last execution is complete and its own
verification passed, and reports pairwise distinct plan versions. -/
theorem runWithPrior_verdict (run : RecoveryRun World) (plan : Plan)
    (priorResult : Option ExecutionResult) (priorVerification : Option VerificationResult)
    (world : World) :
    ∃ answer final,
      (∀ turns, run.maxAttempts + 1 < turns →
        run.runWithPrior turns plan priorResult priorVerification world =
          some (answer, final)) ∧
      executionsIn final.trace ≤ run.maxAttempts ∧
      (priorResult.isSome → executionsIn final.trace ≤ run.maxAttempts - 1) ∧
      final.replans ≤ executionsIn final.trace + (if priorResult.isSome then 1 else 0) ∧
      (∀ error, answer = .error error → RaisedLast final.trace error) ∧
      (∀ outcome, answer = .ok outcome →
        outcome.replans = final.replans ∧ outcome.planVersions.Nodup ∧
        (outcome.status = .recovered ↔
          Passed (lastCycle (priorCycle priorResult priorVerification) final.trace))) := by
  rcases runWithPrior_ends run plan priorResult priorVerification world with
    ⟨answer, final, verdict, ends⟩
  have count : priorCount (priorCycle priorResult priorVerification) =
      if priorResult.isSome then 1 else 0 := by
    cases priorResult <;> rfl
  have bounded := verdict.bounded
  have replanned := verdict.replanned
  rw [count] at bounded replanned
  refine ⟨answer, final, ends, by omega, fun given => ?_, replanned, verdict.raised,
    verdict.reported⟩
  rw [if_pos given] at bounded
  exact bounded

/-- `run_with_prior`, with as many turns as it takes. -/
def conclude (run : RecoveryRun World) (plan : Plan)
    (priorResult : Option ExecutionResult) (priorVerification : Option VerificationResult)
    (world : World) : Except Error RecoveryOutcome × RecoveryLoop World :=
  (run.runWithPrior (run.maxAttempts + 2) plan priorResult priorVerification world).get (by
    rcases runWithPrior_ends run plan priorResult priorVerification world with
      ⟨answer, final, _, ends⟩
    rw [ends _ (Nat.lt_succ_self _)]
    rfl)

theorem runWithPrior_eq_conclude (run : RecoveryRun World) (plan : Plan)
    (priorResult : Option ExecutionResult) (priorVerification : Option VerificationResult)
    (world : World) :
    run.runWithPrior (run.maxAttempts + 2) plan priorResult priorVerification world =
      some (run.conclude plan priorResult priorVerification world) :=
  (Option.some_get _).symm

/-- The call has ended before its loop, or with it. -/
theorem conclude_of_loopFor (run : RecoveryRun World) (plan : Plan)
    (priorResult : Option ExecutionResult) (priorVerification : Option VerificationResult)
    (world : World) :
    (run.conclude plan priorResult priorVerification world).2 =
        run.start plan priorResult priorVerification world ∨
      run.loopFor (run.maxAttempts + 2)
          (run.start plan priorResult priorVerification world) =
        some (run.conclude plan priorResult priorVerification world) := by
  have ended := runWithPrior_eq_conclude run plan priorResult priorVerification world
  generalize run.conclude plan priorResult priorVerification world = concluded at *
  unfold runWithPrior at ended
  dsimp only at ended
  split at ended
  · split at ended
    · cases ended
      exact .inl rfl
    · exact .inr ended
  · exact .inr ended

theorem conclude_verdict (run : RecoveryRun World) (plan : Plan)
    (priorResult : Option ExecutionResult) (priorVerification : Option VerificationResult)
    (world : World) :
    Verdict run (priorCycle priorResult priorVerification)
      (run.conclude plan priorResult priorVerification world).1
      (run.conclude plan priorResult priorVerification world).2 := by
  rcases runWithPrior_ends run plan priorResult priorVerification world with
    ⟨answer, final, verdict, ends⟩
  have same := (runWithPrior_eq_conclude run plan priorResult priorVerification world).symm.trans
    (ends _ (Nat.lt_succ_self _))
  rw [Option.some.inj same]
  exact verdict

/-! ## What a recovery keeps

An invariant of the world and of what has been observed is kept by the recovery when
every call of a callable keeps it. -/

/-- Each callable of the run keeps the invariant, with its call observed. -/
structure KeepsObserved (run : RecoveryRun World)
    (invariant : World → List Observation → Prop) : Prop where
  executes : ∀ plan arguments world trace, invariant world trace →
    invariant (run.calls.executeFn plan arguments world).2
      (trace ++ [.executed plan (run.calls.executeFn plan arguments world).1])
  verifies : ∀ taskId plan result world trace, invariant world trace →
    invariant (run.calls.verifyFn taskId plan result world).2
      (trace ++ [.verified plan result (run.calls.verifyFn taskId plan result world).1])
  replans : ∀ planner, run.engine.planner = some planner →
    ∀ taskId plan reason seen world trace, invariant world trace →
      invariant (planner.requestReplan run.externals.platform run.externals.identity taskId
          plan reason seen world).2
        (trace ++ [.replanned (planner.requestReplan run.externals.platform
          run.externals.identity taskId plan reason seen world).1])

/-- The loop behind a turn. -/
def turnLoop : RecoveryTurn World → RecoveryLoop World
  | .ended _ loop => loop
  | .goesOn loop => loop

/-- The invariant holds of the world and the trace of the loop. -/
def Holds (invariant : World → List Observation → Prop) (loop : RecoveryLoop World) : Prop :=
  invariant loop.world loop.trace

section Observed

variable {invariant : World → List Observation → Prop}

theorem replan_keeps (keeps : KeepsObserved run invariant) (holds : Holds invariant loop)
    (classification : Classification) (verification : VerificationResult) :
    Holds invariant (turnLoop (run.replan loop classification verification)) := by
  unfold replan
  cases hasPlanner : run.engine.planner with
  | none => exact holds
  | some planner =>
      have asked := keeps.replans planner hasPlanner run.taskId loop.current
        classification.detail loop.seen loop.world loop.trace holds
      dsimp only
      generalize planner.requestReplan run.externals.platform run.externals.identity
        run.taskId loop.current classification.detail loop.seen loop.world = answered at *
      rcases answered with ⟨answer, world⟩
      cases answer with
      | error error => cases error <;> exact asked
      | ok candidate => exact asked

theorem decide_keeps (keeps : KeepsObserved run invariant) (holds : Holds invariant loop)
    (result : ExecutionResult) (verification : VerificationResult) :
    Holds invariant (turnLoop (run.decide loop result verification)) := by
  unfold decide
  cases RecoveryRun.passes result verification with
  | true => exact holds
  | false =>
      simp only [Bool.false_eq_true, if_false]
      split
      · exact holds
      · apply replan_keeps keeps
        exact holds
      · exact holds
      · exact holds
      · exact holds

theorem verify_keeps (keeps : KeepsObserved run invariant) (holds : Holds invariant loop)
    (result : ExecutionResult) :
    Holds invariant (turnLoop (run.verify loop result)) := by
  unfold verify
  cases loop.verification with
  | some verification => exact decide_keeps keeps holds result verification
  | none =>
      have asked := keeps.verifies run.taskId loop.current result loop.world loop.trace holds
      generalize run.calls.verifyFn run.taskId loop.current result loop.world = answered at *
      rcases answered with ⟨answer, world⟩
      cases answer with
      | error error => exact asked
      | ok verification =>
          apply decide_keeps keeps
          exact asked

theorem turn_keeps (keeps : KeepsObserved run invariant) (holds : Holds invariant loop) :
    Holds invariant (turnLoop (run.turn loop)) := by
  unfold turn
  cases loop.result with
  | some result => exact verify_keeps keeps holds result
  | none =>
      have asked := keeps.executes loop.current run.arguments loop.world loop.trace holds
      generalize run.calls.executeFn loop.current run.arguments loop.world = answered at *
      rcases answered with ⟨answer, world⟩
      dsimp only
      split
      · exact holds
      · cases answer with
        | error error => exact asked
        | ok result =>
            dsimp only
            split
            · exact asked
            · apply verify_keeps keeps
              exact asked

theorem loopFor_keeps (keeps : KeepsObserved run invariant) {turns : Nat}
    {answer : Except Error RecoveryOutcome} {final : RecoveryLoop World}
    (holds : Holds invariant loop) (ends : run.loopFor turns loop = some (answer, final)) :
    Holds invariant final := by
  refine loopFor_rule ?_ ?_ ends holds
  · intro loop holds turned
    have kept := turn_keeps keeps holds
    rw [turned] at kept
    exact kept
  · intro turns loop next holds turned _
    have kept := turn_keeps keeps holds
    rw [turned] at kept
    exact kept

end Observed

/-- Each callable of the run keeps the invariant of the world. -/
structure KeepsWorld (run : RecoveryRun World) (invariant : World → Prop) : Prop where
  executes : ∀ plan arguments world, invariant world →
    invariant (run.calls.executeFn plan arguments world).2
  verifies : ∀ taskId plan result world, invariant world →
    invariant (run.calls.verifyFn taskId plan result world).2
  replans : ∀ planner, run.engine.planner = some planner →
    ∀ provider, planner.replanProvider = some provider →
    ∀ taskId plan reason world, invariant world →
      invariant (provider taskId plan reason world).2

variable {invariant : World → Prop}

theorem KeepsWorld.observed (keeps : KeepsWorld run invariant) :
    KeepsObserved run fun world _ => invariant world where
  executes plan arguments world _ := keeps.executes plan arguments world
  verifies taskId plan result world _ := keeps.verifies taskId plan result world
  replans planner hasPlanner taskId plan reason seen world trace holds := by
    unfold RecoveryPlanner.requestReplan
    cases provided : planner.replanProvider with
    | none => exact holds
    | some provider =>
        exact keeps.replans planner hasPlanner provider provided _ _ _ _ holds

/-- The whole recovery keeps what its callables keep. -/
theorem conclude_keeps (keeps : KeepsWorld run invariant) (plan : Plan)
    (priorResult : Option ExecutionResult) (priorVerification : Option VerificationResult)
    {world : World} (holds : invariant world) :
    invariant (run.conclude plan priorResult priorVerification world).2.world := by
  have started : Holds (fun world _ => invariant world)
      (run.start plan priorResult priorVerification world) := holds
  rcases conclude_of_loopFor run plan priorResult priorVerification world with same | ended
  · rw [same]
    exact started
  · exact loopFor_keeps keeps.observed started ended

/-! ## What a recovery publishes -/

/-- Only decisions and exhausted budgets have been published. -/
def Announces (loop : RecoveryLoop World) : Prop :=
  ∀ event ∈ loop.events,
    event.eventType = .recoveryDecided ∨ event.eventType = .recoveryExhausted

theorem Announces.publish (announces : Announces loop) {event : Event}
    (kind : event.eventType = .recoveryDecided ∨ event.eventType = .recoveryExhausted)
    {next : RecoveryLoop World} (published : next.events = loop.events ++ [event]) :
    Announces next := by
  intro other member
  rw [published] at member
  rcases List.mem_append.mp member with before | last
  · exact announces other before
  · cases List.mem_singleton.mp last
    exact kind

theorem replan_events (classification : Classification)
    (verification : VerificationResult) :
    (turnLoop (run.replan loop classification verification)).events = loop.events := by
  unfold replan
  cases run.engine.planner with
  | none => rfl
  | some planner =>
      dsimp only
      generalize planner.requestReplan run.externals.platform run.externals.identity
        run.taskId loop.current classification.detail loop.seen loop.world = answered
      rcases answered with ⟨answer, world⟩
      cases answer with
      | error error => cases error <;> rfl
      | ok candidate => rfl

theorem Announces.decide (announces : Announces loop) (result : ExecutionResult)
    (verification : VerificationResult) :
    Announces (turnLoop (run.decide loop result verification)) := by
  have recorded : ∀ record, Announces (run.record loop record) :=
    fun record => announces.publish (.inl rfl) rfl
  unfold RecoveryRun.decide
  cases RecoveryRun.passes result verification with
  | true => exact announces
  | false =>
      simp only [Bool.false_eq_true, if_false]
      split
      · exact recorded _
      · intro event member
        rw [replan_events] at member
        exact recorded _ event member
      · exact recorded _
      · exact (recorded _).publish (.inr rfl) rfl
      · exact recorded _

theorem Announces.verify (announces : Announces loop) (result : ExecutionResult) :
    Announces (turnLoop (run.verify loop result)) := by
  unfold RecoveryRun.verify
  cases loop.verification with
  | some verification => exact announces.decide result verification
  | none =>
      generalize run.calls.verifyFn run.taskId loop.current result loop.world = answered
      rcases answered with ⟨answer, world⟩
      cases answer with
      | error error => exact announces.publish (.inl rfl) rfl
      | ok verification =>
          apply Announces.decide
          exact announces

theorem Announces.turn (announces : Announces loop) :
    Announces (turnLoop (run.turn loop)) := by
  unfold RecoveryRun.turn
  cases loop.result with
  | some result => exact announces.verify result
  | none =>
      generalize run.calls.executeFn loop.current run.arguments loop.world = answered
      rcases answered with ⟨answer, world⟩
      dsimp only
      split
      · exact announces
      · cases answer with
        | error error => exact announces
        | ok result =>
            dsimp only
            split
            · exact announces
            · apply Announces.verify
              exact announces

theorem Announces.loopFor {turns : Nat} {answer : Except Error RecoveryOutcome}
    {final : RecoveryLoop World} (announces : Announces loop)
    (ends : run.loopFor turns loop = some (answer, final)) : Announces final := by
  refine loopFor_rule ?_ ?_ ends announces
  · intro loop announces turned
    have kept := @Announces.turn _ run _ announces
    rw [turned] at kept
    exact kept
  · intro turns loop next announces turned _
    have kept := @Announces.turn _ run _ announces
    rw [turned] at kept
    exact kept

theorem conclude_announces (run : RecoveryRun World) (plan : Plan)
    (priorResult : Option ExecutionResult) (priorVerification : Option VerificationResult)
    (world : World) :
    Announces (run.conclude plan priorResult priorVerification world).2 := by
  have started : Announces (run.start plan priorResult priorVerification world) :=
    fun _ member => (List.not_mem_nil member).elim
  rcases conclude_of_loopFor run plan priorResult priorVerification world with same | ended
  · rw [same]
    exact started
  · exact started.loopFor ended

end RecoveryRun

end Raphael.Agent.Recovery
