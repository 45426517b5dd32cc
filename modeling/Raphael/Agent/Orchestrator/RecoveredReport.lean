import Raphael.Agent.Orchestrator.ContextAgreement
import Raphael.Agent.Recovery.LastAttempt

/-! # The report of a recovered run

The completion is handed the plan and the execution of the first attempt, and of the
recovery only its verification. What a recovered run reports is therefore that of its last
attempt exactly if the two attempts agree in it. -/

namespace Raphael.Agent.Orchestrator

open Core Foundation
open Agent.Executor Agent.Recovery
open Tools

/-- The sources that are kept beside a result. -/
def keptSources (context : ExecutionContext) (named : List (List (String × Json))) :
    List SourceNote :=
  if named.isEmpty then context.researchSources.map fun source =>
    { title := Text.take 500 source.title
      origin := Text.take 200 source.origin
      url := Text.take 2000 source.url }
  else named.map SourceNote.ofFields

namespace SingleAgent

variable {World : Type} {agent : SingleAgent World}

/-! ## What is reported -/

/-- The completion, up to the reply. -/
def summarized (agent : SingleAgent World) (reached : Reached) : AgentM World Unit := do
  let verification := agent.overall reached.verifications
  let (_, target, eventType, payload) := conclusion reached verification
  transition target
  agent.emit eventType payload
  let _ ← agent.summarize reached.execution verification reached.recovery
  return ()

/-- The result, and the sources kept beside it, are those of an attempt: its reply is the one
that is collected here from its plan and its execution. -/
structure ReportsAttempt (agent : SingleAgent World) (here : AgentState World)
    (attempt : Attempt) (result : AgentResult) (sources : List SourceNote) : Prop where
  states : result.stepStates = attempt.execution.states
  verification : attempt.verification.map VerificationResult.status =
    some result.verificationStatus
  reply : ∃ after, agent.collectReply attempt.plan attempt.execution here =
    .ok result.reply after
  sources : ∃ named, namedSources attempt.execution = .ok named ∧
    sources = keptSources here.context named

/-- Two attempts are the same to a report that is made here. -/
structure SameToReport (agent : SingleAgent World) (here : AgentState World)
    (plan : Plan) (execution : ExecutionResult) (attempt : Attempt) : Prop where
  states : execution.states = attempt.execution.states
  reply : ∃ reply after later, agent.collectReply plan execution here = .ok reply after ∧
    agent.collectReply attempt.plan attempt.execution here = .ok reply later
  sources : ∃ named others, namedSources execution = .ok named ∧
    namedSources attempt.execution = .ok others ∧
    keptSources here.context named = keptSources here.context others

/-- What the reply asks of the outside leaves the sources of the research. -/
theorem researchSources_outside (sources : List SourceNote) :
    OutsideInvariant agent fun state => state.context.researchSources = sources where
  outside state world same := by
    unfold interrupted
    split <;> exact same

/-- What a report that returns has made of what was reached. -/
theorem report_returned {reached : Reached} {verification : VerificationResult}
    {status : AgentStatus} {state final : AgentState World} {result : AgentResult}
    (returns : agent.report reached verification status state = .ok result final) :
    ∃ summary here named after,
      agent.summarize reached.execution verification reached.recovery state = .ok summary here ∧
      result.stepStates = reached.execution.states ∧
      result.verificationStatus = verification.status ∧
      agent.collectReply reached.plan reached.execution here = .ok result.reply after ∧
      namedSources reached.execution = .ok named ∧
      final.saved.resultSources = keptSources here.context named := by
  rcases bind_eq_ok.mp returns with ⟨summary, here, summarizes, naming⟩
  rcases bind_eq_ok.mp naming with ⟨named, between, names, replying⟩
  rcases bind_eq_ok.mp replying with ⟨reply, after, replies, noting⟩
  rcases bind_eq_ok.mp noting with ⟨_, noted, notes, looking⟩
  rcases bind_eq_ok.mp looking with ⟨_, looked, looks, saving⟩
  rcases bind_eq_ok.mp saving with ⟨_, saved, saves, last⟩
  rcases pure_eq_ok.mp last with ⟨rfl, rfl⟩
  rcases ofExcept_eq_ok names with ⟨named, rfl⟩
  cases looks
  cases notes
  have kept := saved_of_save saves
  have research := (researchSources_outside between.context.researchSources).collectReply
    reached.plan reached.execution |>.returned rfl replies
  refine ⟨summary, between, _, after, summarizes, rfl, rfl, replies, named, ?_⟩
  rw [kept, keptSources, ← research]

/-- A completion that reports has summarized first. -/
theorem complete_reports {reached : Reached} {state final : AgentState World}
    {result : AgentResult} (running : state.task ≠ .cancelled)
    (returns : agent.complete reached state = .ok result final) :
    ∃ here named after, agent.summarized reached state = .ok () here ∧
      result.stepStates = reached.execution.states ∧
      result.verificationStatus = (agent.overall reached.verifications).status ∧
      agent.collectReply reached.plan reached.execution here = .ok result.reply after ∧
      namedSources reached.execution = .ok named ∧
      final.saved.resultSources = keptSources here.context named := by
  have looks : currentState state = .ok state.task state := rfl
  unfold complete at returns
  rw [bind_apply, looks] at returns
  simp only [if_neg running] at returns
  rcases bind_eq_ok.mp returns with ⟨_, ended, moves, emitting⟩
  rcases bind_eq_ok.mp emitting with ⟨_, emitted, emits, reporting⟩
  rcases report_returned reporting with ⟨summary, here, named, after, summarizes, reports⟩
  refine ⟨here, named, after, ?_, reports⟩
  unfold summarized
  exact bind_eq_ok.mpr ⟨_, ended, moves, bind_eq_ok.mpr ⟨_, emitted, emits,
    bind_eq_ok.mpr ⟨summary, here, summarizes, rfl⟩⟩⟩

theorem complete_of_cancelled {reached : Reached} {state : AgentState World}
    (cancelled : state.task = .cancelled) :
    agent.complete reached state = agent.cancelled "cancelled by operator" state := by
  have looks : currentState state = .ok state.task state := rfl
  unfold complete
  rw [bind_apply, looks]
  simp only [if_pos cancelled]

/-! ## How a run returns -/

/-- The result of a run that was cancelled or has failed tells of no verification. -/
theorem cancelled_pending {error : String} {state final : AgentState World}
    {result : AgentResult} (returns : agent.cancelled error state = .ok result final) :
    result.verificationStatus = .pending := by
  rw [cancelled_apply] at returns
  rcases bind_eq_ok.mp returns with ⟨_, _, _, last⟩
  rcases pure_eq_ok.mp last with ⟨rfl, _⟩
  rfl

theorem fail_pending {error : String} {state final : AgentState World}
    {result : AgentResult} (returns : agent.fail error state = .ok result final) :
    result.verificationStatus = .pending := by
  rw [fail_apply] at returns
  rcases bind_eq_ok.mp returns with ⟨_, _, _, saving⟩
  rcases bind_eq_ok.mp saving with ⟨_, _, _, last⟩
  rcases pure_eq_ok.mp last with ⟨rfl, _⟩
  rfl

theorem handle_pending {error : Error} {state final : AgentState World}
    {result : AgentResult} (returns : agent.handle error state = .ok result final) :
    result.verificationStatus = .pending := by
  have others : (do
        if ← agent.tokenCancelled then agent.cancelled agent.cancellation
        else agent.fail (agent.sanitizeException error)) state = .ok result final →
      result.verificationStatus = .pending := by
    intro returns
    rcases bind_eq_ok.mp returns with ⟨token, _, _, ends⟩
    cases token with
    | true => exact cancelled_pending ends
    | false => exact fail_pending ends
  cases error with
  | cancelled message => exact cancelled_pending returns
  | _ => exact others returns

/-- A run that has come to its completion goes on with it, under its handler. -/
theorem run_of_reach {entry : Entry} {start between : AgentState World} {reached : Reached}
    (reaches : agent.reach entry start = .ok reached between) :
    ∃ handler : Error → AgentM World AgentResult,
      agent.run entry start =
        (tryCatch (agent.complete reached) handler : AgentM World AgentResult) between ∧
      ∀ error (state final : AgentState World) result,
        handler error state = .ok result final → result.verificationStatus = .pending := by
  cases entry with
  | runTask goalText =>
      refine ⟨agent.handle, ?_, fun _ _ _ _ => handle_pending⟩
      have continues : (tryCatch (agent.reach (.runTask goalText) >>= agent.complete)
          agent.handle : AgentM World AgentResult) start =
            (tryCatch (agent.complete reached) agent.handle : AgentM World AgentResult)
              between := tryCatch_of_ok reaches
      rw [← continues, reach, bind_assoc]
      rfl
  | resume =>
      rcases bind_eq_ok.mp reaches with ⟨_, same, looks, resumes⟩
      cases looks
      cases resumable : start.context.plan with
      | none =>
          rw [resumable] at resumes
          cases resumes
      | some plan =>
          rw [resumable] at resumes
          refine ⟨fun error => agent.fail (agent.sanitizeException error), ?_,
            fun _ _ _ _ => fail_pending⟩
          have continues : (tryCatch (agent.pursueAgain plan >>= agent.complete)
              (fun error => agent.fail (agent.sanitizeException error)) :
                AgentM World AgentResult) start =
              (tryCatch (agent.complete reached)
                (fun error => agent.fail (agent.sanitizeException error)) :
                  AgentM World AgentResult) between := tryCatch_of_ok resumes
          rw [← continues]
          change agent.resume start = _
          unfold resume pursueAgain
          rw [get_bind_apply, bind_assoc]
          simp only [resumable]

/-- The last attempt behind a recovery that says RECOVERED passes, and its verification is
what is left. -/
def PassesLast (agent : SingleAgent World) (reached : Reached)
    (trace : List Observation) : Prop :=
  ∃ attempt verification, lastAttempt none trace = some attempt ∧
    attempt.Passes verification ∧ (agent.overall reached.verifications).status = .passed

theorem pursue_recovered {plan : Plan} {state final : AgentState World} {reached : Reached}
    {outcome : RecoveryOutcome} (within : Within Incomplete [] state)
    (returns : agent.pursue plan state = .ok reached final)
    (recovery : reached.recovery = some outcome) (recovered : outcome.status = .recovered) :
    agent.PassesLast reached final.trace := by
  rcases pursue_cases within returns with ⟨_, verifications,
    ⟨unrecovered, _, _⟩ | ⟨other, planner, asked, ended, same, reverified, asking, recovers,
      observed⟩⟩
  · cases unrecovered.symm.trans recovery
  · cases same.symm.trans recovery
    rcases recover_eq_ok asking recovers with ⟨loop, concludes, _, traced⟩
    have last := (agent.recoveryRun planner).conclude_recovered plan reached.execution
      (agent.overall verifications) asked
    rw [concludes] at last
    rcases last outcome rfl recovered with ⟨attempt, verification, isLast, passes, left⟩
    refine ⟨attempt, verification, ?_, passes, ?_⟩
    · rw [observed, traced, lastAttempt_append]
      exact isLast
    · rw [reverified, overall_reverify]
      exact ⟨verification, left, passes.passed⟩

theorem reach_recovered {entry : Entry} {start between : AgentState World} {reached : Reached}
    {outcome : RecoveryOutcome} (within : Within Incomplete [] start)
    (reaches : agent.reach entry start = .ok reached between)
    (recovery : reached.recovery = some outcome) (recovered : outcome.status = .recovered) :
    agent.PassesLast reached between.trace := by
  cases entry with
  | runTask goalText =>
      rcases bind_eq_ok.mp reaches with ⟨plan, planned, prepared, pursued⟩
      exact pursue_recovered ((within_phaseInvariant.prepare goalText).returned within prepared)
        pursued recovery recovered
  | resume =>
      rcases bind_eq_ok.mp reaches with ⟨_, _, looks, resumes⟩
      cases looks
      cases resumable : start.context.plan with
      | none =>
          rw [resumable] at resumes
          cases resumes
      | some plan =>
          rw [resumable] at resumes
          rcases bind_eq_ok.mp resumes with ⟨_, executing, walked, pursued⟩
          have walking := ((@within_phaseInvariant _ agent _).walkTo rfl).returned within walked
          have passes : agent.withoutToken.PassesLast reached between.trace :=
            pursue_recovered walking pursued recovery recovered
          exact passes

end SingleAgent

namespace AgentRun

variable {World : Type} (run : AgentRun World)

/-- The run returns this result behind a recovery that says RECOVERED, and this is the last
attempt. -/
structure Returns (reached : Reached) (state : AgentState World) (attempt : Attempt)
    (result : AgentResult) (final : AgentState World) : Prop where
  reaches : run.Reaches reached state
  recovered : ∃ outcome, reached.recovery = some outcome ∧ outcome.status = .recovered
  last : lastAttempt none state.trace = some attempt
  returns : run.agent.run run.entry run.start = .ok result final

/-- Where the reply is collected. -/
def collecting (reached : Reached) (state : AgentState World) : AgentState World :=
  leaves (run.agent.summarized reached) state

/-- A recovered run reports its last attempt. -/
def ReportsLast : Prop :=
  ∀ reached state attempt result final, run.Returns reached state attempt result final →
    run.agent.ReportsAttempt (run.collecting reached state) attempt result
      final.saved.resultSources

/-- At its completion a recovered run is not cancelled, the completion does not raise, and to
the report its first attempt is the same as its last one. -/
def RepeatsFirst : Prop :=
  ∀ reached state attempt result final, run.Returns reached state attempt result final →
    state.task ≠ .cancelled ∧
    (∃ answer after, run.agent.complete reached state = .ok answer after) ∧
    run.agent.SameToReport (run.collecting reached state) reached.plan reached.execution attempt

variable {run}

/-- A recovered run returns what its completion does, or a result that tells of no
verification. -/
theorem Returns.cases {reached : Reached} {state : AgentState World} {attempt : Attempt}
    {result : AgentResult} {final : AgentState World}
    (returned : run.Returns reached state attempt result final) :
    run.agent.complete reached state = .ok result final ∨
      (∃ error after, run.agent.complete reached state = .error error after) ∧
        result.verificationStatus = .pending := by
  rcases SingleAgent.run_of_reach returned.reaches with ⟨handler, same, pending⟩
  have returns := same.symm.trans returned.returns
  rw [tryCatch_apply] at returns
  cases completes : run.agent.complete reached state with
  | ok answer after =>
      rw [completes] at returns
      exact .inl returns
  | error error after =>
      rw [completes] at returns
      exact .inr ⟨⟨error, after, rfl⟩, pending error after final result returns⟩

/-- The last attempt of a recovered run passes, and so does what its completion reads. -/
theorem Returns.passed {reached : Reached} {state : AgentState World} {attempt : Attempt}
    {result : AgentResult} {final : AgentState World}
    (returned : run.Returns reached state attempt result final) :
    attempt.verification.map VerificationResult.status = some .passed ∧
      (run.agent.overall reached.verifications).status = .passed := by
  rcases returned.recovered with ⟨outcome, recovery, recovered⟩
  rcases SingleAgent.reach_recovered ⟨run.incomplete, rfl⟩ returned.reaches recovery recovered
    with ⟨other, verification, last, passes, left⟩
  cases last.symm.trans returned.last
  rw [passes.verified, Option.map_some, passes.passed]
  exact ⟨rfl, left⟩

/-- A recovered run reports its last attempt exactly if it is the same as the first one. -/
theorem reportsLast_iff_repeatsFirst (run : AgentRun World) :
    run.ReportsLast ↔ run.RepeatsFirst := by
  constructor
  · intro reports reached state attempt result final returned
    have reported := reports reached state attempt result final returned
    -- the result tells of a verification, so that it is that of a completion
    have told : result.verificationStatus ≠ .pending := by
      intro pending
      have status := reported.verification
      rw [returned.passed.1, pending] at status
      cases status
    rcases returned.cases with completes | ⟨_, pending⟩
    · have running : state.task ≠ .cancelled := by
        intro cancelled
        rw [SingleAgent.complete_of_cancelled cancelled] at completes
        exact told (SingleAgent.cancelled_pending completes)
      rcases SingleAgent.complete_reports running completes with
        ⟨here, named, after, summarizes, states, _, replies, names, sources⟩
      have collects : run.collecting reached state = here := by
        rw [collecting, leaves, summarizes]
      rw [collects] at reported ⊢
      rcases reported.reply with ⟨later, again⟩
      rcases reported.sources with ⟨others, namesOthers, kept⟩
      exact ⟨running, ⟨result, final, completes⟩, states.symm.trans reported.states,
        ⟨result.reply, after, later, replies, again⟩,
        ⟨named, others, names, namesOthers, sources.symm.trans kept⟩⟩
    · exact absurd pending told
  · intro repeats reached state attempt result final returned
    rcases repeats reached state attempt result final returned with
      ⟨running, ⟨answer, after, completes⟩, same⟩
    rcases returned.cases with completes | ⟨⟨error, raised, raises⟩, _⟩
    · rcases SingleAgent.complete_reports running completes with
        ⟨here, named, after, summarizes, states, verification, replies, names, sources⟩
      have collects : run.collecting reached state = here := by
        rw [collecting, leaves, summarizes]
      rw [collects] at same ⊢
      rcases same.reply with ⟨reply, first, later, replied, again⟩
      rcases same.sources with ⟨named', others, names', namesOthers, kept⟩
      cases replies.symm.trans replied
      cases names.symm.trans names'
      refine ⟨states.trans same.states, ?_, ⟨later, again⟩, others, namesOthers,
        sources.trans kept⟩
      rw [returned.passed.1, verification, returned.passed.2]
    · cases completes.symm.trans raises

/-! A run that is tried again. -/

/-- The service is unavailable at the first execution. -/
def flakyExecutor : GraphExecutor Nat := fun taskId graph _ executions =>
  let executed : ExecutionResult :=
    if executions = 0 then {
      taskId, status := .failed
      states := graph.ids.map fun id => (id, .failed)
      failed := graph.ids
      results := graph.ids.map fun id => (id, [{ taskId, error := some "unavailable" }]) }
    else {
      taskId, status := .completed
      states := graph.ids.map fun id => (id, .succeeded)
      succeeded := graph.ids
      results := graph.ids.map fun id => (id, [{ taskId, success := true }]) }
  ((.ok executed, []), executions + 1)

def retriedRun : AgentRun Nat where
  agent := { noteAgent with
    executorFactory := some fun executions => (.ok flakyExecutor, executions) }
  entry := .runTask "write a note"
  world := 0
  task := .created
  incomplete := noteRun.incomplete

/-- The second execution succeeds and is verified: the run is COMPLETED, and its result tells
of the step that it has failed. -/
theorem retriedRun_not_reportsLast : ¬ retriedRun.ReportsLast := by
  intro reports
  have toldOfReach : returnsWith (fun reached state =>
      reached.recovery.any (·.status == .recovered) &&
        (lastAttempt none state.trace).any (·.execution.states == [("s1", .succeeded)]))
      (retriedRun.agent.reach retriedRun.entry) retriedRun.start = true := by decide +kernel
  have toldOfRun : returnsWith (fun result _ => result.stepStates == [("s1", .failed)])
      (retriedRun.agent.run retriedRun.entry) retriedRun.start = true := by decide +kernel
  rcases eq_ok_of_returnsWith toldOfReach with ⟨reached, state, reaches, told⟩
  rcases eq_ok_of_returnsWith toldOfRun with ⟨result, final, returns, failed⟩
  simp only [Bool.and_eq_true, Option.any_eq_true, beq_iff_eq] at told failed
  rcases told with ⟨recovered, attempt, last, succeeded⟩
  have reported := reports reached state attempt result final
    ⟨reaches, recovered, last, returns⟩
  have states := reported.states
  rw [failed, succeeded] at states
  cases states

end AgentRun

end Raphael.Agent.Orchestrator
