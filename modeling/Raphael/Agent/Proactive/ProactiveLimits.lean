import Mathlib.Algebra.Order.Ring.Int
import Raphael.Agent.Proactive.ProactiveEngine
import Raphael.Foundation.SlidingWindow

/-! # The limits of proactivity

Over every run with a clock that does not go back, no window shorter than an hour has more
proposals than the configured number, those of one trigger and subject keep the cooldown,
and none is made in quiet hours. -/

namespace Raphael.Agent.Proactive

open Foundation

variable {Time Outcome : Type}

namespace ProactiveConfig

/-- An hour from the start of the quiet ones up to their end. Where the range wraps midnight
it is one from the start on, or before the end. -/
def QuietHour (config : ProactiveConfig) (hour : Int) : Prop :=
  config.quietStartHour ≤ hour ∧ hour < config.quietEndHour ∨
    config.quietEndHour < config.quietStartHour ∧
      (config.quietStartHour ≤ hour ∨ hour < config.quietEndHour)

theorem inQuietHours_iff (config : ProactiveConfig) (hour : Int) :
    config.inQuietHours hour = true ↔ config.QuietHour hour := by
  simp only [inQuietHours, QuietHour]
  split
  · next same =>
      have none : ¬ config.QuietHour hour := by
        unfold QuietHour
        omega
      exact iff_of_false Bool.false_ne_true none
  · split
    · rw [Bool.and_eq_true, decide_eq_true_eq, decide_eq_true_eq]
      omega
    · rw [Bool.or_eq_true, decide_eq_true_eq, decide_eq_true_eq]
      omega

end ProactiveConfig

namespace ProactiveCall

/-- The readings of the clock, two by an evaluation. -/
def readings : ProactiveCall Time Outcome → List Time
  | .evaluate _ quietReading now .. => [quietReading, now]
  | _ => []

/-- The clock stands still during an evaluation. -/
def Still : ProactiveCall Time Outcome → Prop
  | .evaluate _ quietReading now .. => quietReading = now
  | _ => True

end ProactiveCall

namespace ProactiveEngine

theorem made_propose (engine : ProactiveEngine Time) (now : Time)
    (proposal : ProactiveProposal) :
    (engine.propose now proposal).2.made = engine.made ++ [(proposal, now)] := by
  have history : (engine.propose now proposal).2.history =
      engine.history ++ [.proposed proposal now] := by
    unfold propose
    dsimp only
    split <;> rfl
  unfold made
  rw [history, List.filterMap_append]
  rfl

/-- What else a new proposal changes. -/
theorem propose_eq (engine : ProactiveEngine Time) (now : Time)
    (proposal : ProactiveProposal) :
    (engine.propose now proposal).2.clock = engine.clock ∧
      (engine.propose now proposal).2.config = engine.config ∧
      (engine.propose now proposal).2.triggers = engine.triggers ∧
      (engine.propose now proposal).2.proposalTimes = engine.proposalTimes ++ [now] ∧
      (engine.propose now proposal).2.lastFired =
        engine.lastFired.set (proposal.triggerId, proposal.subject) now := by
  unfold propose
  dsimp only
  split <;> exact ⟨rfl, rfl, rfl, rfl, rfl⟩

section Limits

variable [LinearOrder Time] [Sub Time]

/-- The limits, for proposals made under a clock, a configuration and triggers. -/
structure WithinLimits (clock : ProactiveClock Time) (config : ProactiveConfig)
    (triggers : Dict String (ProactiveTrigger Time))
    (made : List (ProactiveProposal × Time)) : Prop where
  /-- A negative number of proposals an hour allows none. -/
  hourly : SlidingWindow.Limited clock.hour config.maxPerHour.toNat (made.map Prod.snd)
  cooled : made.Pairwise fun earlier later =>
    earlier.1.triggerId = later.1.triggerId → earlier.1.subject = later.1.subject →
      ∃ trigger, triggers.get later.1.triggerId = some trigger ∧
        trigger.cooldownS ≤ later.2 - earlier.2
  awake : ∀ proposal now, (proposal, now) ∈ made → ¬ config.QuietHour (clock.utcHour now)

/-- What an engine keeps at a reading of the clock. -/
structure Kept (clock : ProactiveClock Time) (config : ProactiveConfig)
    (triggers : Dict String (ProactiveTrigger Time)) (reading : Time)
    (engine : ProactiveEngine Time) : Prop where
  sameClock : engine.clock = clock
  sameConfig : engine.config = config
  sameTriggers : engine.triggers = triggers
  within : WithinLimits clock config triggers engine.made
  times : SlidingWindow.Keeps clock.hour reading engine.proposalTimes
    (engine.made.map Prod.snd)
  past : ∀ proposal time, (proposal, time) ∈ engine.made → time ≤ reading
  /-- The last time of a key is behind every time of it. -/
  last : ∀ proposal now, (proposal, now) ∈ engine.made → ∃ time,
    engine.lastFired.get (proposal.triggerId, proposal.subject) = some time ∧ now ≤ time

variable {clock : ProactiveClock Time} {config : ProactiveConfig}
  {triggers : Dict String (ProactiveTrigger Time)} {reading now : Time}
  {engine next : ProactiveEngine Time}

theorem Kept.later (kept : Kept clock config triggers reading engine)
    (later : reading ≤ now) : Kept clock config triggers now engine :=
  { kept with
    times := kept.times.later later
    past := fun proposal time member => (kept.past proposal time member).trans later }

theorem Kept.decides (kept : Kept clock config triggers reading engine)
    (decides : engine.Decides next) : Kept clock config triggers reading next where
  sameClock := decides.clock.trans kept.sameClock
  sameConfig := decides.config.trans kept.sameConfig
  sameTriggers := decides.triggers.trans kept.sameTriggers
  within := by
    rw [decides.made]
    exact kept.within
  times := by
    rw [decides.made, decides.proposalTimes]
    exact kept.times
  past := by
    rw [decides.made]
    exact kept.past
  last := by
    rw [decides.made, decides.lastFired]
    exact kept.last

theorem Kept.prune_proposalTimes (kept : Kept clock config triggers reading engine)
    (now : Time) : (engine.prune now).proposalTimes =
      SlidingWindow.recent clock.hour now engine.proposalTimes := by
  rw [← kept.sameClock]
  rfl

theorem kept_start (clock : ProactiveClock Time) (config : ProactiveConfig)
    (triggers : Dict String (ProactiveTrigger Time)) (reading : Time) :
    Kept clock config triggers reading (start clock config triggers) where
  sameClock := rfl
  sameConfig := rfl
  sameTriggers := rfl
  within := {
    hourly := SlidingWindow.limited_nil clock.hour _
    cooled := List.Pairwise.nil
    awake _ _ member := by cases member }
  times := SlidingWindow.keeps_nil clock.hour reading
  past _ _ member := by cases member
  last _ _ member := by cases member

variable [MonotoneDifference Time]

theorem Kept.prune (kept : Kept clock config triggers reading engine)
    (later : reading ≤ now) : Kept clock config triggers now (engine.prune now) :=
  { kept with
    times := by
      rw [kept.prune_proposalTimes]
      exact kept.times.prune later
    past := fun proposal time member => (kept.past proposal time member).trans later }

/-- A proposal that passes the suppressions is within the limits as well. -/
theorem WithinLimits.propose {made : List (ProactiveProposal × Time)}
    (within : WithinLimits clock config triggers made) {proposal : ProactiveProposal}
    {trigger : ProactiveTrigger Time}
    (room : (SlidingWindow.recent clock.hour now (made.map Prod.snd)).length <
      config.maxPerHour.toNat)
    (found : triggers.get proposal.triggerId = some trigger)
    (cooled : ∀ earlier time, (earlier, time) ∈ made →
      earlier.triggerId = proposal.triggerId → earlier.subject = proposal.subject →
        trigger.cooldownS ≤ now - time)
    (awake : config.inQuietHours (clock.utcHour now) = false) :
    WithinLimits clock config triggers (made ++ [(proposal, now)]) where
  hourly := by
    rw [List.map_append]
    exact within.hourly.admit room
  cooled := by
    rw [List.pairwise_append]
    refine ⟨within.cooled, List.pairwise_singleton _ _, ?_⟩
    rintro ⟨earlier, time⟩ member last isLast sameTrigger sameSubject
    obtain rfl := List.mem_singleton.mp isLast
    exact ⟨trigger, found, cooled earlier time member sameTrigger sameSubject⟩
  awake other time member := by
    rw [List.mem_append, List.mem_singleton] at member
    rcases member with earlier | isLast
    · exact within.awake other time earlier
    · cases isLast
      rw [← ProactiveConfig.inQuietHours_iff, awake]
      exact Bool.false_ne_true

theorem Kept.propose (kept : Kept clock config triggers now engine)
    (proposal : ProactiveProposal) {trigger : ProactiveTrigger Time}
    (room : (SlidingWindow.recent clock.hour now (engine.made.map Prod.snd)).length <
      config.maxPerHour.toNat)
    (found : triggers.get proposal.triggerId = some trigger)
    (cooled : ∀ earlier time, (earlier, time) ∈ engine.made →
      earlier.triggerId = proposal.triggerId → earlier.subject = proposal.subject →
        trigger.cooldownS ≤ now - time)
    (awake : config.inQuietHours (clock.utcHour now) = false) :
    Kept clock config triggers now (engine.propose now proposal).2 := by
  rcases engine.propose_eq now proposal with
    ⟨sameClock, sameConfig, sameTriggers, times, lastFired⟩
  constructor
  · exact sameClock.trans kept.sameClock
  · exact sameConfig.trans kept.sameConfig
  · exact sameTriggers.trans kept.sameTriggers
  · rw [made_propose]
    exact kept.within.propose room found cooled awake
  · rw [made_propose, times, List.map_append]
    exact kept.times.admit now
  · intro other time member
    rw [made_propose, List.mem_append, List.mem_singleton] at member
    rcases member with earlier | isLast
    · exact kept.past other time earlier
    · cases isLast
      exact le_refl now
  · intro other time member
    rw [made_propose, List.mem_append, List.mem_singleton] at member
    rw [lastFired, Dict.get_set]
    split
    · refine ⟨now, rfl, ?_⟩
      rcases member with earlier | isLast
      · exact kept.past other time earlier
      · cases isLast
        exact le_refl now
    · next otherKey =>
        rcases member with earlier | isLast
        · exact kept.last other time earlier
        · cases isLast
          exact (otherKey rfl).elim

variable [Zero Time]

theorem Kept.evaluate (kept : Kept clock config triggers reading engine)
    (later : reading ≤ now) (id triggerId subject : String) (risk : Learning.LearningRisk)
    (summary : String) :
    Kept clock config triggers now
      (engine.evaluate id now now triggerId subject risk summary).2 := by
  have how := engine.evaluated id now now triggerId subject risk summary
  generalize engine.evaluate id now now triggerId subject risk summary = answer at how ⊢
  cases how with
  | suppressed => exact kept.later later
  | capped => exact kept.prune later
  | proposed trigger summary found awake cooled room =>
      have pruned := kept.prune later
      generalize isProposal : ProactiveProposal.mk id triggerId subject summary risk .proposed =
        proposal
      have sameTrigger : proposal.triggerId = triggerId := by rw [← isProposal]
      have sameSubject : proposal.subject = subject := by rw [← isProposal]
      rw [← sameTrigger, ← sameSubject] at cooled
      rw [← sameTrigger, kept.sameTriggers] at found
      rw [kept.sameConfig, kept.sameClock] at awake
      have recent : (SlidingWindow.recent clock.hour now (engine.made.map Prod.snd)).length <
          config.maxPerHour.toNat := by
        rw [kept.prune_proposalTimes, kept.times now later, kept.sameConfig] at room
        omega
      refine pruned.propose proposal recent found ?_ awake
      intro earlier time member sameTrigger sameSubject
      rcases kept.last earlier time member with ⟨lastTime, isLast, behind⟩
      rw [sameTrigger, sameSubject] at isLast
      rw [isLast] at cooled
      exact cooled.trans (MonotoneDifference.sub_mono behind (le_refl now))

/-- A call moves the clock to its last reading. -/
theorem Kept.step {call : ProactiveCall Time Outcome}
    (kept : Kept clock config triggers reading engine) (still : call.Still)
    (later : ∀ now ∈ call.readings, reading ≤ now)
    (stepped : step engine call = some next) :
    ∃ now, (now = reading ∨ now ∈ call.readings) ∧ Kept clock config triggers now next := by
  cases call with
  | evaluate id quietReading now triggerId subject risk summary =>
      obtain rfl : quietReading = now := still
      simp only [ProactiveEngine.step] at stepped
      split at stepped
      · cases stepped
      · cases stepped
        have isReading : quietReading ∈ [quietReading, quietReading] := List.mem_cons_self
        exact ⟨quietReading, .inr isReading,
          kept.evaluate (later quietReading isReading) id triggerId subject risk summary⟩
  | approve proposalId =>
      cases stepped
      exact ⟨reading, .inl rfl, kept.decides (decides_approve engine proposalId)⟩
  | reject proposalId =>
      cases stepped
      exact ⟨reading, .inl rfl, kept.decides (decides_reject engine proposalId)⟩
  | execute proposalId executeFn verifyFn =>
      cases stepped
      exact ⟨reading, .inl rfl,
        kept.decides (decides_execute engine proposalId executeFn verifyFn)⟩

theorem Kept.run {calls : List (ProactiveCall Time Outcome)} {final : ProactiveEngine Time}
    (kept : Kept clock config triggers reading engine) (still : ∀ call ∈ calls, call.Still)
    (ordered : (reading :: calls.flatMap (·.readings)).Pairwise (· ≤ ·))
    (reached : StepFunction.run ProactiveEngine.step engine calls = some final) :
    WithinLimits clock config triggers final.made := by
  induction calls generalizing engine reading with
  | nil =>
      cases reached
      exact kept.within
  | cons call rest induction =>
      rcases StepFunction.run_cons_eq_some.mp reached with ⟨next, stepped, remaining⟩
      rw [List.flatMap_cons, List.pairwise_cons, List.pairwise_append] at ordered
      rcases ordered with ⟨first, ofCall, ofRest, across⟩
      rcases kept.step (still call List.mem_cons_self)
          (fun now isReading => first now (List.mem_append_left _ isReading)) stepped with
        ⟨now, isLast, keptNext⟩
      refine induction keptNext (fun call later => still call (List.mem_cons_of_mem _ later))
        (List.pairwise_cons.mpr ⟨fun later member => ?_, ofRest⟩) remaining
      rcases isLast with rfl | isReading
      · exact first later (List.mem_append_right _ member)
      · exact across now isReading later member

/-- The limits hold of every run whose clock does not go back, and stands still during an
evaluation. -/
theorem limits_hold (clock : ProactiveClock Time) (config : ProactiveConfig)
    (triggers : Dict String (ProactiveTrigger Time))
    (calls : List (ProactiveCall Time Outcome)) (final : ProactiveEngine Time)
    (still : ∀ call ∈ calls, call.Still)
    (ordered : (calls.flatMap (·.readings)).Pairwise (· ≤ ·))
    (reached : StepFunction.run ProactiveEngine.step (start clock config triggers) calls =
      some final) :
    WithinLimits clock config triggers final.made := by
  cases isReadings : calls.flatMap (·.readings) with
  | nil =>
      refine (kept_start clock config triggers 0).run still ?_ reached
      rw [isReadings]
      exact List.pairwise_singleton _ _
  | cons first rest =>
      refine (kept_start clock config triggers first).run still ?_ reached
      refine List.pairwise_cons.mpr ⟨fun later member => ?_, ordered⟩
      rw [isReadings] at ordered member
      rcases List.mem_cons.mp member with rfl | isLater
      · exact le_refl later
      · exact (List.pairwise_cons.mp ordered).1 later isLater

end Limits

/-- Seconds from midnight. -/
def secondsClock : ProactiveClock Int := { utcHour := fun now => now / 3600 % 24, hour := 3600 }

def minutely : Dict String (ProactiveTrigger Int) :=
  Dict.empty.set "reminder" { summary := "stand up", cooldownS := 60 }

/-- From noon on, of which the second falls into the cooldown of the first. -/
def threeEvaluations : List (ProactiveCall Int Unit) :=
  [.evaluate "first" 43200 43200 "reminder" "" .low "",
    .evaluate "second" 43230 43230 "reminder" "" .low "",
    .evaluate "third" 43290 43290 "reminder" "" .low ""]

theorem limits_hold_of_cooldown :
    ∃ final, StepFunction.run ProactiveEngine.step (start secondsClock {} minutely)
        threeEvaluations = some final ∧
      WithinLimits secondsClock {} minutely final.made ∧
      final.made.map Prod.snd = [43200, 43290] := by
  refine ⟨_, rfl, limits_hold secondsClock {} minutely threeEvaluations _ ?_ ?_ rfl, by decide⟩
  · simp [threeEvaluations, ProactiveCall.Still]
  · simp [threeEvaluations, ProactiveCall.readings]

end ProactiveEngine

end Raphael.Agent.Proactive
