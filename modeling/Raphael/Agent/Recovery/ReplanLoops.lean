import Raphael.Agent.Recovery.RecoveryVerdict
import Raphael.Security.ApprovalBinding

/-! # Replan loops

Which plans a recovery has tried, and when none is executed whose content is that of
a plan tried before it. A plan is identified by all that is serialized of it, its ids
and timestamps included. -/

namespace Raphael.Agent.Recovery

open Core
open Agent.Executor
open Security
open Tools

/-! ## The content of a plan -/

/-- The same work, whenever and by whomever the step was built. -/
structure SameStep (left right : PlanStep) : Prop where
  id : left.id = right.id
  description : left.description = right.description
  dependencies : left.dependencies = right.dependencies
  tools : left.tools = right.tools
  arguments : SameArguments left.arguments right.arguments
  completionCriteria : left.completionCriteria = right.completionCriteria

structure SameContent (left right : Plan) : Prop where
  goal : left.goal = right.goal
  steps : List.Forall₂ SameStep left.steps right.steps
  finalVerification : left.finalVerification = right.finalVerification

theorem SameStep.refl (step : PlanStep) : SameStep step step :=
  ⟨rfl, rfl, rfl, rfl, rfl, rfl⟩

theorem SameContent.of_steps {left right : Plan} (goal : left.goal = right.goal)
    (steps : left.steps = right.steps)
    (finalVerification : left.finalVerification = right.finalVerification) :
    SameContent left right := by
  refine ⟨goal, ?_, finalVerification⟩
  rw [steps]
  exact List.forall₂_same.mpr fun step _ => SameStep.refl step

/-- What is serialized alike is identified. -/
theorem planVersion_eq_of_planFields (identity : PlanIdentity) {left right : Plan}
    (same : planFields left = planFields right) :
    planVersion identity left = planVersion identity right := by
  rw [planVersion, same, planVersion]

/-! ## The plans that were tried -/

/-- The replacement plan that was accepted, if it is one. -/
def Observation.accepted : Observation → Option Plan
  | .replanned (.ok candidate) => some candidate
  | .replanned (.error _) => none
  | .executed _ _ => none
  | .verified _ _ _ => none

/-- The first plan and the replacements accepted since, in their order. -/
def tried (plan : Plan) (trace : List Observation) : List Plan :=
  plan :: trace.filterMap Observation.accepted

@[simp] theorem tried_append_of_none (plan : Plan) (trace : List Observation)
    {last : Observation} (none : last.accepted = none) :
    tried plan (trace ++ [last]) = tried plan trace := by
  simp [tried, none]

@[simp] theorem tried_append_replanned (plan : Plan) (trace : List Observation)
    (candidate : Plan) :
    tried plan (trace ++ [.replanned (.ok candidate)]) = tried plan trace ++ [candidate] := by
  simp [tried, Observation.accepted]

/-- What is executed is the plan tried last, and its content is that of none before. -/
def NeverRepeats (plan : Plan) (trace : List Observation) : Prop :=
  ∀ front executed answer back, trace = front ++ .executed executed answer :: back →
    ∃ earlier, tried plan front = earlier ++ [executed] ∧
      ∀ before ∈ earlier, ¬ SameContent before executed

theorem neverRepeats_nil (plan : Plan) : NeverRepeats plan [] := by
  intro front executed answer back split
  simp at split

theorem NeverRepeats.append {plan : Plan} {trace : List Observation}
    (never : NeverRepeats plan trace) {last : Observation}
    (fresh : ∀ executed answer, last = .executed executed answer →
      ∃ earlier, tried plan trace = earlier ++ [executed] ∧
        ∀ before ∈ earlier, ¬ SameContent before executed) :
    NeverRepeats plan (trace ++ [last]) := by
  intro front executed answer back split
  rcases List.append_eq_append_iff.mp split with
    ⟨between, isFront, rest⟩ | ⟨between, isTrace, rest⟩
  · cases between with
    | nil =>
        cases List.cons.inj rest |>.1
        rw [isFront, List.append_nil]
        exact fresh executed answer rfl
    | cons head tail => simp at rest
  · cases between with
    | nil =>
        cases List.cons.inj rest |>.1
        rw [List.append_nil] at isTrace
        exact isTrace ▸ fresh executed answer rfl
    | cons head tail =>
        rcases List.cons.inj rest with ⟨rfl, _⟩
        exact never front executed answer tail isTrace

theorem NeverRepeats.append_of_other {plan : Plan} {trace : List Observation}
    (never : NeverRepeats plan trace) {last : Observation}
    (other : ∀ executed answer, last ≠ .executed executed answer) :
    NeverRepeats plan (trace ++ [last]) :=
  never.append fun executed answer same => absurd same (other executed answer)

namespace RecoveryRun

variable {World : Type u} {run : RecoveryRun World} {plan : Plan} {loop : RecoveryLoop World}

/-! ## What the provider is asked -/

/-- The loop and the reason with which a turn asks for a replacement, if it does. -/
abbrev Asked (World : Type u) := Option (RecoveryLoop World × String)

def decideAsks (run : RecoveryRun World) (loop : RecoveryLoop World)
    (result : ExecutionResult) (verification : VerificationResult) : Asked World :=
  let classification := run.classify result verification
  if passes result verification then none
  else
    match run.engine.policy.actionFor classification loop.retries loop.replans with
    | .replan => some (loop, classification.detail)
    | .retry | .skip | .escalate | .fail => none

def verifyAsks (run : RecoveryRun World) (loop : RecoveryLoop World)
    (result : ExecutionResult) : Asked World :=
  match loop.verification with
  | some verification => run.decideAsks loop result verification
  | none =>
      let (answer, world) := run.calls.verifyFn run.taskId loop.current result loop.world
      match answer with
      | .error _ => none
      | .ok verification =>
          run.decideAsks { loop with
            world
            trace := loop.trace ++ [.verified loop.current result answer]
            verification := some verification } result verification

def turnAsks (run : RecoveryRun World) (loop : RecoveryLoop World) : Asked World :=
  match loop.result with
  | some result => run.verifyAsks loop result
  | none =>
      if loop.executions ≥ run.maxAttempts then none
      else
        let (answer, world) := run.calls.executeFn loop.current run.arguments loop.world
        match answer with
        | .error _ => none
        | .ok result =>
            if result.status = .cancelled then none
            else run.verifyAsks { loop with
              world
              trace := loop.trace ++ [.executed loop.current answer]
              result := some result
              executions := loop.executions + 1
              verification := none } result

/-- The provider answers with the candidate, which passes the other checks, and there
are attempts left for it. -/
def Offers (run : RecoveryRun World) (loop : RecoveryLoop World) (reason : String)
    (candidate : Plan) : Prop :=
  loop.executions < run.maxAttempts ∧
    ∃ planner provider next, run.engine.planner = some planner ∧
      planner.replanProvider = some provider ∧
      provider run.taskId loop.current reason loop.world = (.ok candidate, next) ∧
      planner.vet run.externals.platform run.externals.identity run.taskId candidate [] =
        .ok ()

/-- When the content is that of a plan tried before, all that is serialized is that of
a plan tried before. -/
def Verbatim (earlier : List Plan) (candidate : Plan) : Prop :=
  (∃ before ∈ earlier, SameContent before candidate) →
    ∃ before ∈ earlier, planFields before = planFields candidate

/-- What is offered when asked so is verbatim. -/
def OffersVerbatim (run : RecoveryRun World) (plan : Plan) (asked : Asked World) : Prop :=
  ∀ loop reason, asked = some (loop, reason) →
    ∀ candidate, run.Offers loop reason candidate → Verbatim (tried plan loop.trace) candidate

/-- The loop goes on from one to the other. -/
def GoesOn (run : RecoveryRun World) (loop next : RecoveryLoop World) : Prop :=
  run.turn loop = .goesOn next

/-- In each turn of the run, what is offered is verbatim. -/
def RepeatsVerbatim (run : RecoveryRun World) (plan : Plan) (first : RecoveryLoop World) :
    Prop :=
  ∀ loop, Relation.ReflTransGen run.GoesOn first loop →
    run.OffersVerbatim plan (run.turnAsks loop)

/-! ## The invariant of the loop -/

/-- Between two turns, and inside one: the versions of the plans tried are known, and
the current plan, tried last, has new content while there are attempts left. -/
structure Fresh (run : RecoveryRun World) (plan : Plan) (loop : RecoveryLoop World) :
    Prop where
  known : ∀ before ∈ tried plan loop.trace,
    planVersion run.externals.identity before ∈ loop.seen
  current : ∃ earlier, tried plan loop.trace = earlier ++ [loop.current] ∧
    (loop.executions < run.maxAttempts →
      ∀ before ∈ earlier, ¬ SameContent before loop.current)
  never : NeverRepeats plan loop.trace

/-- A turn ends without a repetition, or goes on with the invariant. -/
def Freshens (run : RecoveryRun World) (plan : Plan) : RecoveryTurn World → Prop
  | .ended _ final => NeverRepeats plan final.trace
  | .goesOn next => Fresh run plan next

/-- Something else than an execution or a replacement is observed, or nothing is. -/
theorem Fresh.observe (fresh : Fresh run plan loop) {next : RecoveryLoop World}
    (same : tried plan next.trace = tried plan loop.trace)
    (never : NeverRepeats plan next.trace) (current : next.current = loop.current)
    (seen : next.seen = loop.seen) (executions : loop.executions ≤ next.executions) :
    Fresh run plan next := by
  rcases fresh.current with ⟨earlier, last, new⟩
  refine ⟨?_, ⟨earlier, ?_, ?_⟩, never⟩
  · rw [same, seen]
    exact fresh.known
  · rw [same, current]
    exact last
  · intro left
    rw [current]
    exact new (by omega)

/-- The current plan may be executed while there are attempts left. -/
theorem Fresh.execute (fresh : Fresh run plan loop)
    (left : loop.executions < run.maxAttempts) (answer : Except Error ExecutionResult) :
    NeverRepeats plan (loop.trace ++ [.executed loop.current answer]) := by
  rcases fresh.current with ⟨earlier, last, new⟩
  apply fresh.never.append
  intro executed other same
  cases same
  exact ⟨earlier, last, new left⟩

theorem Fresh.replan (fresh : Fresh run plan loop) {classification : Classification}
    (verbatim : ∀ candidate, run.Offers loop classification.detail candidate →
      Verbatim (tried plan loop.trace) candidate)
    (verification : VerificationResult) :
    Freshens run plan (run.replan loop classification verification) := by
  unfold RecoveryRun.replan
  cases hasPlanner : run.engine.planner with
  | none => exact fresh.never
  | some planner =>
      dsimp only
      cases asked : planner.requestReplan run.externals.platform run.externals.identity
          run.taskId loop.current classification.detail loop.seen loop.world with
      | mk answer world =>
          have never : NeverRepeats plan (loop.trace ++ [.replanned answer]) :=
            fresh.never.append_of_other (by simp)
          cases answer with
          | error error => cases error <;> exact never
          | ok candidate =>
              rcases planner.requestReplan_eq_ok run.externals.platform
                run.externals.identity asked with ⟨provider, provided, proposed, vetted⟩
              rcases planner.vet_eq_ok run.externals.platform run.externals.identity vetted
                with ⟨unseen, passes⟩
              refine ⟨?_, ⟨tried plan loop.trace, ?_, ?_⟩, never⟩
              · intro before member
                simp only [again, tried_append_replanned, List.mem_append,
                  List.mem_singleton] at member
                rcases member with earlier | rfl
                · exact List.mem_cons_of_mem _ (fresh.known before earlier)
                · exact List.mem_cons_self
              · exact tried_append_replanned plan loop.trace candidate
              · intro left before member same
                have offered : run.Offers loop classification.detail candidate :=
                  ⟨left, planner, provider, world, hasPlanner, provided, proposed, passes⟩
                rcases verbatim candidate offered ⟨before, member, same⟩ with
                  ⟨known, wasTried, fields⟩
                have version := planVersion_eq_of_planFields run.externals.identity fields
                exact unseen (version ▸ fresh.known known wasTried)

theorem Fresh.decide (fresh : Fresh run plan loop) {result : ExecutionResult}
    {verification : VerificationResult}
    (verbatim : run.OffersVerbatim plan (run.decideAsks loop result verification)) :
    Freshens run plan (run.decide loop result verification) := by
  revert verbatim
  unfold RecoveryRun.decide decideAsks
  cases RecoveryRun.passes result verification with
  | true => exact fun _ => fresh.never
  | false =>
      simp only [Bool.false_eq_true, if_false]
      have recorded : ∀ record, Fresh run plan (run.record loop record) :=
        fun record => fresh.observe rfl fresh.never rfl rfl le_rfl
      cases run.engine.policy.actionFor (run.classify result verification) loop.retries
          loop.replans with
      | retry => exact fun _ => fresh.observe rfl fresh.never rfl rfl le_rfl
      | replan =>
          intro verbatim
          exact (recorded _).replan (verbatim loop _ rfl) verification
      | skip => exact fun _ => fresh.never
      | escalate => exact fun _ => fresh.never
      | fail => exact fun _ => fresh.never

theorem Fresh.verify (fresh : Fresh run plan loop) {result : ExecutionResult}
    (verbatim : run.OffersVerbatim plan (run.verifyAsks loop result)) :
    Freshens run plan (run.verify loop result) := by
  revert verbatim
  unfold RecoveryRun.verify verifyAsks
  cases loop.verification with
  | some verification => exact fresh.decide
  | none =>
      generalize run.calls.verifyFn run.taskId loop.current result loop.world = answered
      rcases answered with ⟨answer, world⟩
      have never : NeverRepeats plan (loop.trace ++ [.verified loop.current result answer]) :=
        fresh.never.append_of_other (by simp)
      cases answer with
      | error error => exact fun _ => never
      | ok verification =>
          apply Fresh.decide
          exact fresh.observe (tried_append_of_none plan loop.trace rfl) never rfl rfl le_rfl

theorem Fresh.turn (fresh : Fresh run plan loop)
    (verbatim : run.OffersVerbatim plan (run.turnAsks loop)) :
    Freshens run plan (run.turn loop) := by
  revert verbatim
  unfold RecoveryRun.turn turnAsks
  cases loop.result with
  | some result => exact fresh.verify
  | none =>
      generalize run.calls.executeFn loop.current run.arguments loop.world = answered
      rcases answered with ⟨answer, world⟩
      dsimp only
      split
      · exact fun _ => fresh.never
      · next left =>
          have never := fresh.execute (Nat.lt_of_not_le left) answer
          cases answer with
          | error error => exact fun _ => never
          | ok result =>
              dsimp only
              split
              · exact fun _ => never
              · apply Fresh.verify
                exact fresh.observe (tried_append_of_none plan loop.trace rfl) never rfl rfl
                  (Nat.le_succ _)

/-- The invariant holds till the loop ends. -/
theorem Fresh.loopFor {turns : Nat} {answer : Except Error RecoveryOutcome}
    {final : RecoveryLoop World} (fresh : Fresh run plan loop)
    (verbatim : run.RepeatsVerbatim plan loop)
    (ended : run.loopFor turns loop = some (answer, final)) :
    NeverRepeats plan final.trace := by
  refine @loopFor_rule _ run loop answer final
    (fun loop => Fresh run plan loop ∧ run.RepeatsVerbatim plan loop) _ ?_ ?_ turns ended
    ⟨fresh, verbatim⟩
  · rintro loop ⟨fresh, verbatim⟩ turned
    have freshens := fresh.turn (verbatim loop .refl)
    rw [turned] at freshens
    exact freshens
  · rintro turns loop next ⟨fresh, verbatim⟩ turned _
    have freshens := fresh.turn (verbatim loop .refl)
    rw [turned] at freshens
    exact ⟨freshens, fun later reached => verbatim later (.head turned reached)⟩

theorem fresh_start (run : RecoveryRun World) (plan : Plan)
    (priorResult : Option ExecutionResult) (priorVerification : Option VerificationResult)
    (world : World) :
    Fresh run plan (run.start plan priorResult priorVerification world) := by
  refine ⟨?_, ⟨[], rfl, fun _ => List.forall_mem_nil _⟩, neverRepeats_nil plan⟩
  intro before member
  cases List.mem_singleton.mp member
  exact List.mem_singleton_self _

/-- In every recovery in which what is offered again is offered verbatim, no plan is
executed whose content is that of a plan tried before it. -/
theorem conclude_neverRepeats (run : RecoveryRun World) (plan : Plan)
    (priorResult : Option ExecutionResult) (priorVerification : Option VerificationResult)
    (world : World)
    (verbatim : run.RepeatsVerbatim plan
      (run.start plan priorResult priorVerification world)) :
    NeverRepeats plan (run.conclude plan priorResult priorVerification world).2.trace := by
  have started := fresh_start run plan priorResult priorVerification world
  rcases conclude_of_loopFor run plan priorResult priorVerification world with same | ended
  · rw [same]
    exact started.never
  · exact started.loopFor verbatim ended

/-! ## A plan that is built again -/

def workRegistry : ToolRegistry where
  entries := [{
    tool := { name := "work" }
    handler := fun _ => .result { success := true, output := .str "ok" } }]

def workPlan : Plan where
  id := "plan-1"
  goal := "do the work"
  steps := [{
    id := "s1"
    description := "work"
    tools := ["work"]
    verification := "it is done"
    completionCriteria := "done" }]
  finalVerification := "all is done"

/-- The new object has an id of its own. -/
def workAgain : Plan := { workPlan with id := "plan-2" }

/-- The work is always done and never verified, and the provider always proposes the
candidate. -/
def workRun (candidate : Plan) : RecoveryRun Unit where
  externals := {
    platform := {
      lower := id
      basename := id
      isAbsolute := fun _ => false
      isBelow := fun _ _ => true }
    identity := { modelDumpJson := Json.defaultText, sha256 := id } }
  engine := {
    planner := some {
      registry := workRegistry
      replanProvider := some fun _ _ _ world => (.ok candidate, world) } }
  calls := {
    executeFn := fun _ _ world => (.ok { status := .completed }, world)
    verifyFn := fun _ _ _ world => (.ok { status := .failed }, world) }
  taskId := "task"

def workTrace (candidate : Plan) : List Observation :=
  ((workRun candidate).conclude workPlan none none ()).2.trace

/-- The content of the plan that has failed is executed once more. -/
theorem rebuilt_plan_executed : ¬ NeverRepeats workPlan (workTrace workAgain) := by
  have trace : workTrace workAgain =
      [.executed workPlan (.ok { status := .completed }),
        .verified workPlan { status := .completed } (.ok { status := .failed }),
        .replanned (.ok workAgain)] ++
      .executed workAgain (.ok { status := .completed }) :: (workTrace workAgain).drop 4 := by
    rfl
  intro never
  rcases never _ workAgain _ _ trace with ⟨earlier, last, new⟩
  have isEarlier : earlier = [workPlan] := by
    have parts : [workPlan] ++ [workAgain] = earlier ++ [workAgain] := last
    exact (List.append_cancel_right parts).symm
  exact new workPlan (isEarlier ▸ List.mem_singleton_self _) (.of_steps rfl rfl rfl)

/-- The same object is offered again, and is rejected. -/
theorem same_plan_not_executed : NeverRepeats workPlan (workTrace workPlan) := by
  apply conclude_neverRepeats
  intro loop _ asked reason _ candidate offers _
  rcases offers.2 with ⟨planner, provider, next, isPlanner, isProvider, proposed, _⟩
  cases isPlanner
  cases isProvider
  cases proposed
  exact ⟨workPlan, List.mem_cons_self, rfl⟩

end RecoveryRun

end Raphael.Agent.Recovery
