import Mathlib.Algebra.Order.Ring.Int
import Raphael.Agent.Proactive.ProactiveEngine

/-! # Proactive actions run once

A callable is invoked under an approval, and the proposal is settled behind it. It is not
where the verification raises, or where the callable ends in something that is no
exception: the proposal stays approved, and its callable can be invoked again. -/

namespace Raphael.Agent.Proactive

open Core Foundation

variable {Time Outcome : Type}

def ProactiveAct.Invokes (proposalId : String) : ProactiveAct Time → Bool
  | .invoked id => id = proposalId
  | _ => false

/-- The proposal has been approved: by a call, or as one of low risk where no approval is
required. -/
def ApprovedIn (config : ProactiveConfig) (history : List (ProactiveAct Time))
    (proposalId : String) : Prop :=
  .approved proposalId ∈ history ∨ config.requireApproval = false ∧
    ∃ proposal now, .proposed proposal now ∈ history ∧ proposal.id = proposalId ∧
      proposal.risk = .low

namespace ProactiveEngine

/-- No callable is invoked twice for a proposal, and none without its approval. -/
structure RunsOnce (engine : ProactiveEngine Time) : Prop where
  once : ∀ id, engine.history.countP (·.Invokes id) ≤ 1
  approved : ∀ front id back, engine.history = front ++ .invoked id :: back →
    ApprovedIn engine.config front id
  unrejected : ∀ id, .invoked id ∈ engine.history → .rejected id ∉ engine.history

/-- The callables of an approved proposal come to an end that `execute` handles: the first
returns or raises an exception, and the verification returns what is true or false. -/
def Settles (engine : ProactiveEngine Time) : ProactiveCall Time Outcome → Prop
  | .execute proposalId executeFn verifyFn =>
      (∃ proposal, engine.proposals.get proposalId = some proposal ∧
        proposal.state = .approved) →
      match executeFn with
      | .returned outcome => ∀ verify, verifyFn = some verify →
          ∃ verdict verified, verify outcome = .ok verdict ∧ verdict.truth = .ok verified
      | .raised _ => True
      | .interrupted _ => False
  | _ => True

/-! ## What a call does to the proposals -/

/-- Every proposal is held under its own id. -/
def Keyed (engine : ProactiveEngine Time) : Prop :=
  ∀ id proposal, engine.proposals.get id = some proposal → proposal.id = id

/-- A proposal is written under its id, and an act is recorded. -/
structure Writes (engine next : ProactiveEngine Time) (proposal : ProactiveProposal)
    (act : ProactiveAct Time) : Prop where
  proposals : ∀ id, next.proposals.get id =
    if id = proposal.id then some proposal else engine.proposals.get id
  history : next.history = engine.history ++ [act]

inductive Effect (engine next : ProactiveEngine Time) : Prop
  | nothing (proposals : next.proposals = engine.proposals)
      (history : next.history = engine.history)
  | proposes (proposal : ProactiveProposal) (now : Time) (state : ProposalState)
      (fresh : engine.proposals.get proposal.id = none)
      (opened : state = .proposed ∨
        state = .approved ∧ engine.config.requireApproval = false ∧ proposal.risk = .low)
      (writes : engine.Writes next { proposal with state } (.proposed proposal now))
  | approves (proposal : ProactiveProposal)
      (held : engine.proposals.get proposal.id = some proposal)
      (undecided : proposal.state = .proposed)
      (writes : engine.Writes next { proposal with state := .approved }
        (.approved proposal.id))
  | rejects (proposal : ProactiveProposal)
      (held : engine.proposals.get proposal.id = some proposal)
      (undecided : proposal.state = .proposed)
      (writes : engine.Writes next { proposal with state := .rejected }
        (.rejected proposal.id))
  | executes (proposal : ProactiveProposal) (state : ProposalState)
      (held : engine.proposals.get proposal.id = some proposal)
      (approved : proposal.state = .approved) (settled : state = .executed ∨ state = .failed)
      (writes : engine.Writes next { proposal with state } (.invoked proposal.id))

theorem require_eq_ok {engine : ProactiveEngine Time} {proposalId : String}
    {proposal : ProactiveProposal} :
    engine.require proposalId = .ok proposal ↔
      engine.proposals.get proposalId = some proposal := by
  unfold require
  cases engine.proposals.get proposalId <;> simp

theorem get_settle (engine : ProactiveEngine Time) (proposal : ProactiveProposal)
    (state : ProposalState) (id : String) :
    (engine.settle proposal state).proposals.get id =
      if id = proposal.id then some { proposal with state } else engine.proposals.get id :=
  Dict.get_set engine.proposals proposal.id _ id

variable {engine next : ProactiveEngine Time}

/-- A call that looks its proposal up does nothing where there is none, and has the effect of
what it does to the one that it finds. -/
private theorem effect_required {Answer : Type} (keyed : engine.Keyed) (proposalId : String)
    {body : ProactiveProposal → Except Error Answer × ProactiveEngine Time}
    (each : ∀ proposal, engine.proposals.get proposalId = some proposal →
      proposal.id = proposalId → engine.Effect (body proposal).2) :
    engine.Effect (match engine.require proposalId with
      | .error error => (.error error, engine)
      | .ok proposal => body proposal : Except Error Answer × ProactiveEngine Time).2 := by
  cases found : engine.require proposalId with
  | error error => exact .nothing rfl rfl
  | ok proposal =>
      have held := require_eq_ok.mp found
      exact each proposal held (keyed proposalId proposal held)

theorem effect_approve (keyed : engine.Keyed) (proposalId : String) :
    engine.Effect (engine.approve proposalId).2 := by
  apply effect_required keyed proposalId
  rintro proposal held rfl
  split
  · exact .nothing rfl rfl
  · next undecided =>
      exact .approves proposal held (not_not.mp undecided)
        ⟨get_settle engine proposal .approved, rfl⟩

theorem effect_reject (keyed : engine.Keyed) (proposalId : String) :
    engine.Effect (engine.reject proposalId).2 := by
  apply effect_required keyed proposalId
  rintro proposal held rfl
  split
  · exact .nothing rfl rfl
  · next undecided =>
      exact .rejects proposal held (not_not.mp undecided)
        ⟨get_settle engine proposal .rejected, rfl⟩

theorem effect_execute (keyed : engine.Keyed) (proposalId : String)
    (executeFn : ExecuteEnd Outcome) (verifyFn : Option (VerifyFn Outcome))
    (settles : engine.Settles (.execute proposalId executeFn verifyFn)) :
    engine.Effect (engine.execute proposalId executeFn verifyFn).2 := by
  apply effect_required keyed proposalId
  rintro proposal held rfl
  split
  · exact .nothing rfl rfl
  · next isApproved =>
      have approved := not_not.mp isApproved
      have ends := settles ⟨proposal, held, approved⟩
      have writes (state : ProposalState) (payload : List (String × Json)) :
          engine.Writes
            (((engine.note (.invoked proposal.id)).settle proposal state).emit
              .proactiveExecuted payload)
            { proposal with state } (.invoked proposal.id) :=
        ⟨get_settle _ proposal state, rfl⟩
      have finished (verified : Bool) (shown : Json) :
          engine.Effect
            ((engine.note (.invoked proposal.id)).finish proposal verified shown).2 := by
        refine .executes proposal (if verified then .executed else .failed) held approved ?_
          (writes _ _)
        cases verified
        · exact .inr rfl
        · exact .inl rfl
      cases executeFn with
      | raised text =>
          exact .executes proposal .failed held approved (.inr rfl) (writes _ _)
      | interrupted error => exact ends.elim
      | returned outcome =>
          cases verifyFn with
          | none => exact finished _ _
          | some verify =>
              rcases ends verify rfl with ⟨verdict, verified, returns, truth⟩
              simp only [ProactiveEngine.verify, returns, truth]
              exact finished _ _

section Evaluation

variable [LinearOrder Time] [Sub Time]

theorem effect_propose (now : Time) (proposal : ProactiveProposal)
    (fresh : engine.proposals.get proposal.id = none) (undecided : proposal.state = .proposed) :
    engine.Effect ((engine.prune now).propose now proposal).2 := by
  unfold propose
  dsimp only
  split
  · next open_ =>
      have both : engine.config.requireApproval = false ∧ proposal.risk = .low := by
        rw [Bool.and_eq_true, Bool.not_eq_true', decide_eq_true_eq] at open_
        exact open_
      refine .proposes proposal now .approved fresh (.inr ⟨rfl, both⟩) ⟨fun id => ?_, rfl⟩
      refine (get_settle _ proposal .approved id).trans ?_
      split
      · rfl
      · next other => exact (Dict.get_set _ _ _ _).trans (if_neg other)
  · refine .proposes proposal now .proposed fresh (.inl rfl) ⟨fun id => ?_, rfl⟩
    have same : ({ proposal with state := .proposed } : ProactiveProposal) = proposal := by
      rw [← undecided]
    rw [same]
    exact Dict.get_set _ _ _ _

variable [Zero Time]

theorem effect_evaluate {id triggerId subject summary : String} (quietReading now : Time)
    (risk : Learning.LearningRisk) (fresh : engine.proposals.get id = none) :
    engine.Effect
      (engine.evaluate id quietReading now triggerId subject risk summary).2 := by
  have how := engine.evaluated id quietReading now triggerId subject risk summary
  generalize engine.evaluate id quietReading now triggerId subject risk summary = answer at how ⊢
  cases how with
  | suppressed => exact .nothing rfl rfl
  | capped => exact .nothing rfl rfl
  | proposed trigger summary => exact effect_propose now _ fresh rfl

theorem effect_of_step {call : ProactiveCall Time Outcome} (keyed : engine.Keyed)
    (settles : engine.Settles call) (stepped : step engine call = some next) :
    engine.Effect next := by
  cases call with
  | evaluate id quietReading now triggerId subject risk summary =>
      simp only [step] at stepped
      split at stepped
      · cases stepped
      · next unused =>
          cases stepped
          exact effect_evaluate quietReading now risk (Option.not_isSome_iff_eq_none.mp unused)
  | approve proposalId =>
      cases stepped
      exact effect_approve keyed proposalId
  | reject proposalId =>
      cases stepped
      exact effect_reject keyed proposalId
  | execute proposalId executeFn verifyFn =>
      cases stepped
      exact effect_execute keyed proposalId executeFn verifyFn settles

end Evaluation

/-! ## What every run keeps -/

structure Sound (engine : ProactiveEngine Time) : Prop where
  keyed : engine.Keyed
  once : ∀ id, engine.history.countP (·.Invokes id) ≤ 1
  ordered : ∀ front id back, engine.history = front ++ .invoked id :: back →
    ApprovedIn engine.config front id
  /-- A proposal whose callable was invoked is settled. -/
  invoked : ∀ id, .invoked id ∈ engine.history → ∃ proposal,
    engine.proposals.get id = some proposal ∧
      (proposal.state = .executed ∨ proposal.state = .failed)
  rejected : ∀ id, .rejected id ∈ engine.history → ∃ proposal,
    engine.proposals.get id = some proposal ∧ proposal.state = .rejected
  approved : ∀ id proposal, engine.proposals.get id = some proposal →
    proposal.state = .approved → ApprovedIn engine.config engine.history id

theorem ApprovedIn.append {config : ProactiveConfig} {history : List (ProactiveAct Time)}
    {id : String} (approved : ApprovedIn config history id) (later : List (ProactiveAct Time)) :
    ApprovedIn config (history ++ later) id := by
  rcases approved with called | ⟨unasked, proposal, now, present, same, low⟩
  · exact .inl (List.mem_append_left later called)
  · exact .inr ⟨unasked, proposal, now, List.mem_append_left later present, same, low⟩

/-- The last place of an invocation. -/
theorem ordered_append {config : ProactiveConfig} {history : List (ProactiveAct Time)}
    {act : ProactiveAct Time}
    (ordered : ∀ front id back, history = front ++ .invoked id :: back →
      ApprovedIn config front id)
    (last : ∀ id, act = .invoked id → ApprovedIn config history id) :
    ∀ front id back, history ++ [act] = front ++ .invoked id :: back →
      ApprovedIn config front id := by
  intro front id back shape
  rcases List.eq_nil_or_concat back with rfl | ⟨middle, final, rfl⟩
  · rcases List.append_inj' shape rfl with ⟨rfl, same⟩
    injection same with isInvoked
    exact last id isInvoked
  · have split : history ++ [act] = (front ++ .invoked id :: middle) ++ [final] := by
      rw [shape, List.concat_eq_append, List.append_assoc, List.cons_append]
    exact ordered front id middle (List.append_inj' split rfl).1

variable {proposal : ProactiveProposal} {act : ProactiveAct Time}

/-- A written proposal keeps a run sound, where its callable had not been invoked, nor the
proposal been rejected, and where the act says what the state is. -/
theorem Sound.write (sound : engine.Sound) (config : next.config = engine.config)
    (writes : engine.Writes next proposal act)
    (uninvoked : .invoked proposal.id ∉ engine.history)
    (unrejected : .rejected proposal.id ∉ engine.history)
    (invokes : ∀ id, act = .invoked id → id = proposal.id ∧
      (proposal.state = .executed ∨ proposal.state = .failed) ∧
      ApprovedIn engine.config engine.history id)
    (rejects : ∀ id, act = .rejected id → id = proposal.id ∧ proposal.state = .rejected)
    (approves : proposal.state = .approved →
      ApprovedIn engine.config (engine.history ++ [act]) proposal.id) : next.Sound where
  keyed id held found := by
    rw [writes.proposals] at found
    split at found
    · next same =>
        cases found
        exact same.symm
    · exact sound.keyed id held found
  once id := by
    rw [writes.history, List.countP_append, List.countP_singleton]
    split
    · next isInvoked =>
        cases act with
        | invoked other =>
            have same : other = id := by simpa [ProactiveAct.Invokes] using isInvoked
            have none : engine.history.countP (·.Invokes id) = 0 := by
              rw [List.countP_eq_zero]
              intro earlier member isInvoked
              cases earlier with
              | invoked earlier =>
                  have isId : earlier = id := by simpa [ProactiveAct.Invokes] using isInvoked
                  rw [isId, ← same, (invokes other rfl).1] at member
                  exact uninvoked member
              | _ => cases isInvoked
            rw [none]
        | _ => cases isInvoked
    · exact sound.once id
  ordered := by
    rw [config, writes.history]
    exact ordered_append sound.ordered fun id isInvoked => (invokes id isInvoked).2.2
  invoked id member := by
    rw [writes.history, List.mem_append, List.mem_singleton] at member
    rw [writes.proposals]
    rcases member with earlier | now
    · have other : id ≠ proposal.id := by
        rintro rfl
        exact uninvoked earlier
      rw [if_neg other]
      exact sound.invoked id earlier
    · rcases invokes id now.symm with ⟨same, settled, _⟩
      exact ⟨proposal, if_pos same, settled⟩
  rejected id member := by
    rw [writes.history, List.mem_append, List.mem_singleton] at member
    rw [writes.proposals]
    rcases member with earlier | now
    · have other : id ≠ proposal.id := by
        rintro rfl
        exact unrejected earlier
      rw [if_neg other]
      exact sound.rejected id earlier
    · rcases rejects id now.symm with ⟨same, settled⟩
      exact ⟨proposal, if_pos same, settled⟩
  approved id held found isApproved := by
    rw [writes.proposals] at found
    rw [config, writes.history]
    split at found
    · next same =>
        cases found
        exact same ▸ approves isApproved
    · exact ApprovedIn.append (sound.approved id held found isApproved) [act]

/-- Only a settled proposal has had its callable invoked, and only a rejected one has been
rejected. -/
theorem Sound.untouched (sound : engine.Sound) (id : String)
    (opened : ∀ proposal, engine.proposals.get id = some proposal →
      proposal.state = .proposed ∨ proposal.state = .approved) :
    .invoked id ∉ engine.history ∧ .rejected id ∉ engine.history := by
  constructor
  · intro member
    rcases sound.invoked id member with ⟨proposal, held, settled⟩
    rcases opened proposal held with isOpen | isOpen <;> rw [isOpen] at settled <;>
      rcases settled with same | same <;> cases same
  · intro member
    rcases sound.rejected id member with ⟨proposal, held, settled⟩
    rcases opened proposal held with isOpen | isOpen <;> rw [isOpen] at settled <;> cases settled

theorem Sound.effect (sound : engine.Sound) (config : next.config = engine.config)
    (effect : engine.Effect next) : next.Sound := by
  cases effect with
  | nothing proposals history =>
      constructor
      · unfold Keyed
        rw [proposals]
        exact sound.keyed
      · rw [history]
        exact sound.once
      · rw [history, config]
        exact sound.ordered
      · rw [history, proposals]
        exact sound.invoked
      · rw [history, proposals]
        exact sound.rejected
      · rw [history, proposals, config]
        exact sound.approved
  | proposes proposal now state fresh opened writes =>
      have untouched := sound.untouched proposal.id fun held found => by
        rw [fresh] at found
        cases found
      refine sound.write config writes untouched.1 untouched.2 (fun _ same => by cases same)
        (fun _ same => by cases same) fun isApproved => ?_
      rcases opened with isProposed | ⟨_, unasked, low⟩
      · rw [isProposed] at isApproved
        cases isApproved
      · exact .inr ⟨unasked, proposal, now,
          List.mem_append_right _ (List.mem_singleton.mpr rfl), rfl, low⟩
  | approves proposal held undecided writes =>
      have untouched := sound.untouched proposal.id fun other found => by
        cases held.symm.trans found
        exact .inl undecided
      refine sound.write config writes untouched.1 untouched.2 (fun _ same => by cases same)
        (fun _ same => by cases same) fun _ => ?_
      exact .inl (List.mem_append_right _ (List.mem_singleton.mpr rfl))
  | rejects proposal held undecided writes =>
      have untouched := sound.untouched proposal.id fun other found => by
        cases held.symm.trans found
        exact .inl undecided
      refine sound.write config writes untouched.1 untouched.2 (fun _ same => by cases same)
        (fun id same => ?_) fun isApproved => by cases isApproved
      cases same
      exact ⟨rfl, rfl⟩
  | executes proposal state held approved settled writes =>
      have untouched := sound.untouched proposal.id fun other found => by
        cases held.symm.trans found
        exact .inr approved
      refine sound.write config writes untouched.1 untouched.2 (fun id same => ?_)
        (fun _ same => by cases same) fun isApproved => ?_
      · cases same
        exact ⟨rfl, settled, sound.approved _ proposal held approved⟩
      · have unsettled : state = .approved := isApproved
        rw [unsettled] at settled
        rcases settled with same | same <;> cases same

theorem sound_start (clock : ProactiveClock Time) (config : ProactiveConfig)
    (triggers : Dict String (ProactiveTrigger Time)) : (start clock config triggers).Sound where
  keyed _ _ found := by cases found
  once _ := Nat.zero_le 1
  ordered front id back shape := by
    have member : ProactiveAct.invoked id ∈ (start clock config triggers).history := by
      rw [shape]
      exact List.mem_append_right _ List.mem_cons_self
    cases member
  invoked _ member := by cases member
  rejected _ member := by cases member
  approved _ _ found := by cases found

theorem Sound.runsOnce (sound : engine.Sound) : engine.RunsOnce where
  once := sound.once
  approved := sound.ordered
  unrejected id invoked rejected := by
    rcases sound.invoked id invoked with ⟨proposal, held, settled⟩
    rcases sound.rejected id rejected with ⟨other, found, isRejected⟩
    cases held.symm.trans found
    rw [isRejected] at settled
    rcases settled with same | same <;> cases same

section Runs

variable [LinearOrder Time] [Sub Time] [Zero Time]

theorem config_evaluate (engine : ProactiveEngine Time) (id : String) (quietReading now : Time)
    (triggerId subject : String) (risk : Learning.LearningRisk) (summary : String) :
    (engine.evaluate id quietReading now triggerId subject risk summary).2.config =
      engine.config := by
  have how := engine.evaluated id quietReading now triggerId subject risk summary
  generalize engine.evaluate id quietReading now triggerId subject risk summary = answer at how ⊢
  cases how with
  | suppressed => rfl
  | capped => rfl
  | proposed trigger summary =>
      unfold propose
      dsimp only
      split <;> rfl

theorem config_of_step {call : ProactiveCall Time Outcome}
    (stepped : step engine call = some next) : next.config = engine.config := by
  cases call with
  | evaluate id quietReading now triggerId subject risk summary =>
      simp only [step] at stepped
      split at stepped
      · cases stepped
      · cases stepped
        exact config_evaluate _ _ _ _ _ _ _ _
  | approve proposalId =>
      cases stepped
      exact (decides_approve engine proposalId).config
  | reject proposalId =>
      cases stepped
      exact (decides_reject engine proposalId).config
  | execute proposalId executeFn verifyFn =>
      cases stepped
      exact (decides_execute engine proposalId executeFn verifyFn).config

/-- Over every run whose executions come to an end that is handled, callables run once and
under an approval. -/
theorem runs_once_of_settles (clock : ProactiveClock Time) (config : ProactiveConfig)
    (triggers : Dict String (ProactiveTrigger Time))
    (calls : List (ProactiveCall Time Outcome)) (final : ProactiveEngine Time)
    (settles : StepFunction.Meets step Settles (start clock config triggers) calls)
    (reached : StepFunction.run step (start clock config triggers) calls = some final) :
    final.RunsOnce := by
  have sound : final.Sound :=
    StepFunction.invariant_of_meets
      (fun _ _ _ sound settles stepped =>
        sound.effect (config_of_step stepped) (effect_of_step sound.keyed settles stepped))
      (sound_start clock config triggers) settles reached
  exact sound.runsOnce

end Runs

/-! ## A verification that raises -/

/-- Noon at every reading, in seconds. -/
def noon : ProactiveClock Int := { utcHour := fun _ => 12, hour := 3600 }

def reminder : Dict String (ProactiveTrigger Int) :=
  Dict.empty.set "reminder" { summary := "stand up", cooldownS := 60 }

/-- A proposal is made and approved, and its callable invoked. -/
def decidedRun (verifyFn : Option (VerifyFn Unit)) : List (ProactiveCall Int Unit) :=
  [.evaluate "first" 7200 7200 "reminder" "" .low "", .approve "first",
    .execute "first" (.returned ()) verifyFn]

theorem runs_once_of_verified :
    ∃ final, StepFunction.run step (start noon {} reminder)
        (decidedRun (some fun _ => .ok { truth := .ok true })) = some final ∧
      final.RunsOnce ∧ .invoked "first" ∈ final.history := by
  refine ⟨_, rfl, runs_once_of_settles noon {} reminder
    (decidedRun (some fun _ => .ok { truth := .ok true })) _ ?_ rfl, ?_⟩
  · refine ⟨trivial, fun _ _ => ⟨trivial, fun _ _ => ⟨fun _ verify given => ?_, fun _ _ => ?_⟩⟩⟩
    · cases given
      exact ⟨_, _, rfl, rfl⟩
    · trivial
  · exact List.mem_iff_getElem?.mpr ⟨2, rfl⟩

/-- The verification raises, the proposal stays approved, and its callable is invoked
again. -/
theorem invoked_twice :
    ¬ ∀ (calls : List (ProactiveCall Int Unit)) (final : ProactiveEngine Int),
      StepFunction.run step (start noon {} reminder) calls = some final → final.RunsOnce := by
  intro claimed
  let raising : VerifyFn Unit := fun _ => .error (.other "verification")
  have once := (claimed
    (decidedRun (some raising) ++ [.execute "first" (.returned ()) (some raising)]) _ rfl).once
    "first"
  revert once
  decide

end ProactiveEngine

end Raphael.Agent.Proactive
