import Raphael.Agent.Recovery.RecoveryVerdict

/-! # The last attempt

An attempt is a plan, its execution, and the verification of it. A recovery that says
RECOVERED hands back the verification of its last attempt, but neither the plan nor the
execution. -/

namespace Raphael.Agent.Recovery

open Core
open Agent.Executor

structure Attempt where
  plan : Plan
  execution : ExecutionResult
  verification : Option VerificationResult := none

/-- The last attempt, behind one more observation. -/
def nextAttempt (last : Option Attempt) : Observation → Option Attempt
  | .executed plan (.ok execution) => some { plan, execution }
  | .executed _ (.error _) => none
  | .verified _ _ (.ok verification) =>
      last.map fun attempt => { attempt with verification := some verification }
  | .verified _ _ (.error _) => last
  | .replanned _ => last

/-- The last attempt that was observed; at first the prior one, if any. -/
def lastAttempt (prior : Option Attempt) (trace : List Observation) : Option Attempt :=
  trace.foldl nextAttempt prior

theorem lastAttempt_append (prior : Option Attempt) (first second : List Observation) :
    lastAttempt prior (first ++ second) = lastAttempt (lastAttempt prior first) second :=
  List.foldl_append

theorem lastAttempt_concat (prior : Option Attempt) (trace : List Observation)
    (last : Observation) :
    lastAttempt prior (trace ++ [last]) = nextAttempt (lastAttempt prior trace) last := by
  rw [lastAttempt_append]
  rfl

/-- The attempt is complete, and its verification is this one and passed. -/
structure Attempt.Passes (attempt : Attempt) (verification : VerificationResult) : Prop where
  completed : attempt.execution.status = .completed
  verified : attempt.verification = some verification
  passed : verification.status = .passed

namespace RecoveryRun

variable {World : Type u} {run : RecoveryRun World} {prior : Option Attempt}
  {loop next : RecoveryLoop World} {attempt : Attempt}

/-- What is called RECOVERED is an attempt that passes, with its verification. -/
def Recovered (prior : Option Attempt) (answer : Except Error RecoveryOutcome)
    (final : RecoveryLoop World) : Prop :=
  ∀ outcome, answer = .ok outcome → outcome.status = .recovered →
    ∃ attempt verification, lastAttempt prior final.trace = some attempt ∧
      attempt.Passes verification ∧ outcome.finalVerification = some verification

/-- A turn ends so, or puts its execution aside. -/
def TurnRecovers (prior : Option Attempt) : RecoveryTurn World → Prop
  | .ended answer final => Recovered prior answer final
  | .goesOn next => next.result = none

theorem ends_recovers {status : OutcomeStatus} (different : status ≠ .recovered)
    (loop : RecoveryLoop World) (reason : String) :
    TurnRecovers prior (run.ends loop status reason) := by
  intro outcome returned recovered
  cases returned
  exact absurd recovered different

theorem replan_recovers (classification : Classification) (verification : VerificationResult) :
    TurnRecovers prior (run.replan loop classification verification) := by
  unfold replan
  split
  · exact ends_recovers (by decide) _ _
  · dsimp only
    split
    · split
      · exact ends_recovers (by decide) _ _
      · exact ends_recovers (by decide) _ _
      · intro outcome returned
        cases returned
    · rfl

theorem decide_recovers {result : ExecutionResult} {verification : VerificationResult}
    (last : lastAttempt prior loop.trace = some attempt) (executed : attempt.execution = result)
    (verified : attempt.verification = some verification)
    (holds : loop.verification = some verification) :
    TurnRecovers prior (run.decide loop result verification) := by
  subst executed
  unfold decide
  split
  · next passes =>
      simp only [RecoveryRun.passes, Bool.and_eq_true, beq_iff_eq] at passes
      intro outcome returned _
      cases returned
      exact ⟨attempt, verification, last, ⟨passes.1, verified, passes.2⟩, holds⟩
  · dsimp only
    split
    · rfl
    · exact replan_recovers _ _
    · exact ends_recovers (by decide) _ _
    · exact ends_recovers (by decide) _ _
    · exact ends_recovers (by decide) _ _

theorem verify_recovers {result : ExecutionResult}
    (last : lastAttempt prior loop.trace = some attempt) (executed : attempt.execution = result)
    (holds : attempt.verification = loop.verification) :
    TurnRecovers prior (run.verify loop result) := by
  unfold verify
  split
  · next verification known =>
      exact decide_recovers last executed (holds.trans known) known
  · dsimp only
    split
    · exact ends_recovers (by decide) _ _
    · next verification answered =>
        have verified : lastAttempt prior (loop.trace ++ [.verified loop.current result
            (.ok verification)]) =
              some { attempt with verification := some verification } := by
          rw [lastAttempt_concat, last]
          rfl
        rw [answered]
        exact decide_recovers verified executed rfl rfl

/-- The execution that stands is that of the last attempt. -/
def StandsLast (prior : Option Attempt) (loop : RecoveryLoop World) : Prop :=
  ∀ result, loop.result = some result →
    ∃ attempt, lastAttempt prior loop.trace = some attempt ∧ attempt.execution = result ∧
      attempt.verification = loop.verification

theorem turn_recovers (stands : StandsLast prior loop) :
    TurnRecovers prior (run.turn loop) := by
  unfold turn
  split
  · next result standing =>
      rcases stands result standing with ⟨attempt, last, executed, verified⟩
      exact verify_recovers last executed verified
  · split
    · exact ends_recovers (by decide) _ _
    · dsimp only
      split
      · intro outcome returned
        cases returned
      · next result answered =>
          split
          · exact ends_recovers (by decide) _ _
          · rw [answered]
            have executed : lastAttempt prior (loop.trace ++ [.executed loop.current
                (.ok result)]) = some { plan := loop.current, execution := result } := by
              rw [lastAttempt_concat]
              rfl
            exact verify_recovers executed rfl rfl

theorem loopFor_recovers {turns : Nat} {answer : Except Error RecoveryOutcome}
    {final : RecoveryLoop World} (stands : StandsLast prior loop)
    (ends : run.loopFor turns loop = some (answer, final)) : Recovered prior answer final := by
  refine loopFor_rule ?_ ?_ ends stands
  · intro loop stands turned
    have recovers := @turn_recovers _ run _ _ stands
    rw [turned] at recovers
    exact recovers
  · intro turns loop next stands turned _ result standing
    have recovers := @turn_recovers _ run _ _ stands
    rw [turned] at recovers
    rw [show next.result = none from recovers] at standing
    cases standing

/-- A recovery from a prior attempt that says RECOVERED has the verification of its last
attempt, which passes. -/
theorem conclude_recovered (run : RecoveryRun World) (plan : Plan)
    (execution : ExecutionResult) (verification : VerificationResult) (world : World) :
    Recovered (some { plan, execution, verification := some verification })
      (run.conclude plan (some execution) (some verification) world).1
      (run.conclude plan (some execution) (some verification) world).2 := by
  have ends := runWithPrior_eq_conclude run plan (some execution) (some verification) world
  generalize run.conclude plan (some execution) (some verification) world = concluded at *
  rcases concluded with ⟨answer, final⟩
  simp only [runWithPrior] at ends
  split at ends
  · next passes =>
      cases ends
      simp only [RecoveryRun.passes, Bool.and_eq_true, beq_iff_eq] at passes
      intro outcome returned _
      cases returned
      exact ⟨_, verification, rfl, ⟨passes.1, rfl, passes.2⟩, rfl⟩
  · refine loopFor_recovers (fun result standing => ?_) ends
    cases standing
    exact ⟨_, rfl, rfl, rfl⟩

end RecoveryRun

end Raphael.Agent.Recovery
