import Mathlib.Algebra.Order.Ring.Int
import Raphael.Interface.Gateway

/-! # Replays at the gateway

A nonce is remembered for the replay window, and a session may live longer. While the clock
does not go back, a state-changing call is let through a second time exactly when its session
repeats it after the window. -/

namespace Raphael.Interface

open Foundation

/-- No state-changing call was let through twice. -/
def NoReplay (events : List GatewayEvent) : Prop :=
  (events.filterMap GatewayEvent.writing).Nodup

/-- A nonce, and when it was used. -/
def GatewayEvent.use : GatewayEvent → Option (String × Int)
  | .checked _ _ _ nonce moment => if nonce = "" then none else some (nonce, moment)
  | _ => none

/-- The session is live and has the scope. -/
def EcosystemGateway.grants (gateway : EcosystemGateway) (now : Int) (token scope : String) :
    Bool :=
  match (gateway.liveSession now token).1 with
  | .ok session => session.scopes.contains scope
  | .error _ => false

namespace GatewayHistory

/-- The uses of nonces that were let through. -/
def uses (history : GatewayHistory) : List (String × Int) :=
  history.events.filterMap GatewayEvent.use

/-- The clock does not go back. -/
def Forward (history : GatewayHistory) (call : ClockedCall) : Prop :=
  history.clock ≤ call.first ∧ call.first ≤ call.second

/-- A live session repeats a state-changing call of its own, and the replay window has passed
since every use of the nonce. -/
def RepeatsLate (settings : GatewaySettings) (history : GatewayHistory) (call : ClockedCall) :
    Prop :=
  match call.call with
  | .check token scope nonce =>
      scope ∈ writeScopes ∧ history.gateway.grants call.first token scope = true ∧
        (token, nonce) ∈ history.events.filterMap GatewayEvent.writing ∧
        ∀ use ∈ history.uses, use.1 = nonce → settings.replayWindow < call.second - use.2
  | _ => False

instance (history : GatewayHistory) (call : ClockedCall) : Decidable (history.Forward call) :=
  inferInstanceAs (Decidable (_ ∧ _))

instance (settings : GatewaySettings) (history : GatewayHistory) :
    (call : ClockedCall) → Decidable (RepeatsLate settings history call)
  | ⟨.check token scope nonce, first, second⟩ =>
      decidable_of_iff (scope ∈ writeScopes ∧ history.gateway.grants first token scope = true ∧
        (history.events.filterMap GatewayEvent.writing).contains (token, nonce) = true ∧
        ∀ use ∈ history.uses, use.1 = nonce → settings.replayWindow < second - use.2)
        (by rw [List.contains_iff_mem]; rfl)
  | ⟨.issuePairingCode .., _, _⟩ | ⟨.pair .., _, _⟩ | ⟨.refresh .., _, _⟩
  | ⟨.revokeToken .., _, _⟩ | ⟨.revokeDevice .., _, _⟩ => .isFalse id

/-! ## What is remembered -/

/-- Where the items are in an order that the predicate goes down with, what is dropped from
the front is what meets it. -/
private theorem dropWhile_eq_filter {Item : Type u} {meets : Item → Bool} {items : List Item}
    (ordered : items.Pairwise fun earlier later => meets later → meets earlier) :
    items.dropWhile meets = items.filter fun item => !meets item := by
  induction items with
  | nil => rfl
  | cons item rest induction =>
      rcases List.pairwise_cons.mp ordered with ⟨first, others⟩
      rw [List.dropWhile_cons, List.filter_cons]
      cases met : meets item with
      | true => simpa using induction others
      | false =>
          have kept : rest.filter (fun other => !meets other) = rest := by
            rw [List.filter_eq_self]
            intro other member
            cases late : meets other with
            | false => rfl
            | true => exact absurd (first other member late) (by simp [met])
          simp [kept]

/-- The memory holds the uses of the last replay window, in the order of their times. -/
structure Remembers (settings : GatewaySettings) (history : GatewayHistory) : Prop where
  ordered : history.gateway.nonces.Pairwise fun earlier later => earlier.2 ≤ later.2
  past : ∀ use ∈ history.gateway.nonces, use.2 ≤ history.clock
  used : ∀ use ∈ history.gateway.nonces, use ∈ history.uses
  recent : ∀ use ∈ history.uses, use ∈ history.gateway.nonces ∨
    settings.replayWindow < history.clock - use.2
  named : ∀ token nonce, (token, nonce) ∈ history.events.filterMap GatewayEvent.writing →
    nonce ≠ ""

variable {settings : GatewaySettings} {history next : GatewayHistory} {call : ClockedCall}
  {events : List GatewayEvent} {left : EcosystemGateway} {token scope nonce : String}

theorem remembers_start (settings : GatewaySettings) (clock : Int) :
    Remembers settings (start clock) := by
  constructor
  · exact .nil
  · exact fun _ member => absurd member List.not_mem_nil
  · exact fun _ member => absurd member List.not_mem_nil
  · exact fun _ member => absurd member List.not_mem_nil
  · exact fun _ _ member => absurd member List.not_mem_nil

theorem Remembers.recentNonces (remembers : Remembers settings history) (now : Int) :
    history.gateway.recentNonces settings now =
      history.gateway.nonces.filter fun use => !(settings.replayWindow < now - use.2) := by
  apply dropWhile_eq_filter
  apply remembers.ordered.imp
  intro earlier later before late
  simp only [decide_eq_true_iff] at late ⊢
  omega

theorem Remembers.mem_recentNonces (remembers : Remembers settings history) {now : Int}
    {use : String × Int} :
    use ∈ history.gateway.recentNonces settings now ↔
      use ∈ history.gateway.nonces ∧ ¬ settings.replayWindow < now - use.2 := by
  rw [remembers.recentNonces, List.mem_filter]
  simp

/-- The nonce is remembered exactly if one of its uses is within the window. -/
theorem Remembers.unused_iff (remembers : Remembers settings history) {now : Int}
    (later : history.clock ≤ now) :
    (∀ use ∈ history.gateway.recentNonces settings now, use.1 ≠ nonce) ↔
      ∀ use ∈ history.uses, use.1 = nonce → settings.replayWindow < now - use.2 := by
  constructor
  · intro unused use used same
    by_contra recent
    rcases remembers.recent use used with held | gone
    · exact unused use (remembers.mem_recentNonces.mpr ⟨held, recent⟩) same
    · omega
  · intro late use held same
    rcases remembers.mem_recentNonces.mp held with ⟨present, recent⟩
    exact recent (late use (remembers.used use present) same)

/-- A call that records no use leaves the memory, or drops what is older than the window. -/
theorem Remembers.of_quiet (remembers : Remembers settings history)
    (forward : history.Forward call)
    (quiet : events.filterMap GatewayEvent.use = [] ∧
      events.filterMap GatewayEvent.writing = [])
    (nonces : left.nonces = history.gateway.nonces ∨
      left.nonces = history.gateway.recentNonces settings call.second) :
    Remembers settings (history.after call left events) := by
  have uses : (history.after call left events).uses = history.uses := by
    change (history.events ++ events).filterMap _ = _
    rw [List.filterMap_append, quiet.1, List.append_nil]
    rfl
  have writing : (history.after call left events).events.filterMap GatewayEvent.writing =
      history.events.filterMap GatewayEvent.writing := by
    change (history.events ++ events).filterMap _ = _
    rw [List.filterMap_append, quiet.2, List.append_nil]
  have later : history.clock ≤ call.second := Int.le_trans forward.1 forward.2
  have sublist : left.nonces.Sublist history.gateway.nonces := by
    rcases nonces with same | recent
    · exact same ▸ .refl _
    · exact recent ▸ List.dropWhile_sublist _
  constructor
  · exact remembers.ordered.sublist sublist
  · exact fun use held => Int.le_trans (remembers.past use (sublist.subset held)) later
  · exact fun use held => uses ▸ remembers.used use (sublist.subset held)
  · intro use used
    rw [uses] at used
    change use ∈ left.nonces ∨ settings.replayWindow < call.second - use.2
    rcases remembers.recent use used with held | gone
    · rcases nonces with same | recent
      · exact .inl (same ▸ held)
      · by_cases late : settings.replayWindow < call.second - use.2
        · exact .inr late
        · exact .inl (recent ▸ remembers.mem_recentNonces.mpr ⟨held, late⟩)
    · exact .inr (by omega)
  · exact fun token nonce written => remembers.named token nonce (writing ▸ written)

/-- A call that is let through with a nonce records its use. -/
theorem Remembers.remember (remembers : Remembers settings history)
    (forward : history.Forward call) {device : String} (nonempty : nonce ≠ "") :
    Remembers settings (history.after call (history.gateway.remember settings call.second nonce)
      [.checked token device scope nonce call.second]) := by
  have later : history.clock ≤ call.second := Int.le_trans forward.1 forward.2
  have uses : (history.after call (history.gateway.remember settings call.second nonce)
      [.checked token device scope nonce call.second]).uses =
        history.uses ++ [(nonce, call.second)] := by
    change (history.events ++ [_]).filterMap _ = _
    simp [List.filterMap_append, GatewayEvent.use, nonempty, GatewayHistory.uses]
  have nonces : (history.gateway.remember settings call.second nonce).nonces =
      history.gateway.recentNonces settings call.second ++ [(nonce, call.second)] := by
    simp [EcosystemGateway.remember, nonempty]
  have earlier (use : String × Int)
      (held : use ∈ history.gateway.recentNonces settings call.second) :
      use ∈ history.gateway.nonces := (remembers.mem_recentNonces.mp held).1
  constructor
  · change (history.gateway.remember settings call.second nonce).nonces.Pairwise _
    rw [nonces, List.pairwise_append]
    refine ⟨remembers.ordered.sublist (List.dropWhile_sublist _), List.pairwise_singleton _ _, ?_⟩
    intro use held new isNew
    rw [List.mem_singleton.mp isNew]
    exact Int.le_trans (remembers.past use (earlier use held)) later
  · intro use held
    change use ∈ (history.gateway.remember settings call.second nonce).nonces at held
    change use.2 ≤ call.second
    rw [nonces, List.mem_append, List.mem_singleton] at held
    rcases held with old | rfl
    · exact Int.le_trans (remembers.past use (earlier use old)) later
    · exact Int.le_refl _
  · intro use held
    change use ∈ (history.gateway.remember settings call.second nonce).nonces at held
    rw [nonces, List.mem_append] at held
    rw [uses, List.mem_append]
    exact held.imp_left fun old => remembers.used use (earlier use old)
  · intro use used
    change use ∈ (history.gateway.remember settings call.second nonce).nonces ∨
      settings.replayWindow < call.second - use.2
    rw [uses, List.mem_append] at used
    rw [nonces, List.mem_append]
    rcases used with old | new
    · by_cases late : settings.replayWindow < call.second - use.2
      · exact .inr late
      · rcases remembers.recent use old with held | gone
        · exact .inl (.inl (remembers.mem_recentNonces.mpr ⟨held, late⟩))
        · omega
    · exact .inl (.inr new)
  · intro other written member
    change (other, written) ∈ (history.events ++ [_]).filterMap _ at member
    rw [List.filterMap_append, List.mem_append] at member
    rcases member with old | new
    · exact remembers.named other written old
    · simp only [GatewayEvent.writing, List.filterMap_cons, List.filterMap_nil] at new
      split at new
      · cases new
      · next pair found =>
          split at found
          · cases found
            cases List.mem_singleton.mp new
            exact nonempty
          · cases found

/-! ## Runs -/

theorem grants_iff {gateway : EcosystemGateway} {now : Int} :
    gateway.grants now token scope = true ↔
      ∃ session, gateway.Live now token session ∧ scope ∈ session.scopes := by
  unfold EcosystemGateway.grants
  rcases EcosystemGateway.liveSession_cases gateway now token with
    ⟨session, live, answered⟩ | ⟨error, left, answered, _⟩
  · rw [answered]
    constructor
    · exact fun granted => ⟨session, live, List.contains_iff_mem.mp granted⟩
    · rintro ⟨other, known, granted⟩
      cases live.known.symm.trans known.known
      exact List.contains_iff_mem.mpr granted
  · rw [answered]
    constructor
    · intro granted
      cases granted
    · rintro ⟨session, live, _⟩
      rw [EcosystemGateway.liveSession_of_live live] at answered
      cases answered

/-- A late repetition is let through. -/
theorem Remembers.admits_of_late (remembers : Remembers settings history)
    (forward : history.Forward call) (isCall : call.call = .check token scope nonce)
    (late : RepeatsLate settings history call) :
    scope ∈ writeScopes ∧ (token, nonce) ∈ history.events.filterMap GatewayEvent.writing ∧
      ∃ session, history.gateway.Admits settings call.first call.second token scope nonce
        session := by
  simp only [RepeatsLate, isCall] at late
  rcases late with ⟨writes, granted, written, late⟩
  rcases grants_iff.mp granted with ⟨session, live, granted⟩
  refine ⟨writes, written, session, live, granted, fun _ => ?_, fun _ => ?_⟩
  · exact remembers.named token nonce written
  · exact (remembers.unused_iff (Int.le_trans forward.1 forward.2)).mpr late

theorem isCheck_of_late (late : RepeatsLate settings history call) :
    ∃ token scope nonce, call.call = .check token scope nonce := by
  unfold RepeatsLate at late
  split at late
  · next token scope nonce isCall => exact ⟨token, scope, nonce, isCall⟩
  · exact late.elim

/-- The state-changing calls that are known behind a call. -/
theorem noReplay_after :
    NoReplay (history.after call left events).events ↔
      (history.events.filterMap GatewayEvent.writing ++
        events.filterMap GatewayEvent.writing).Nodup := by
  change ((history.events ++ events).filterMap _).Nodup ↔ _
  rw [List.filterMap_append]

theorem writing_checked {device : String} {moment : Int} :
    [GatewayEvent.checked token device scope nonce moment].filterMap GatewayEvent.writing =
      if scope ∈ writeScopes then [(token, nonce)] else [] := by
  by_cases writes : scope ∈ writeScopes <;> simp [GatewayEvent.writing, writes]

/-- A call that does not repeat a nonce late writes nothing that was written before. -/
theorem Remembers.unwritten (remembers : Remembers settings history)
    (forward : history.Forward call) (prompt : ¬ RepeatsLate settings history call)
    (isCall : call.call = .check token scope nonce) {session : DeviceSession}
    (admits : history.gateway.Admits settings call.first call.second token scope nonce session)
    (writes : scope ∈ writeScopes) :
    (token, nonce) ∉ history.events.filterMap GatewayEvent.writing := by
  intro written
  apply prompt
  simp only [RepeatsLate, isCall]
  refine ⟨writes, grants_iff.mpr ⟨session, admits.live, admits.granted⟩, written, ?_⟩
  exact (remembers.unused_iff (Int.le_trans forward.1 forward.2)).mp
    (admits.unused (admits.named writes))

/-- A prompt call keeps what is remembered, and replays nothing. -/
theorem Remembers.perform (remembers : Remembers settings history)
    (unreplayed : NoReplay history.events) (forward : history.Forward call)
    (prompt : ¬ RepeatsLate settings history call)
    (performed : Performed settings history.gateway call left events) :
    Remembers settings (history.after call left events) ∧
      NoReplay (history.after call left events).events := by
  have nothing (quiet : events.filterMap GatewayEvent.writing = []) :
      NoReplay (history.after call left events).events := by
    rw [noReplay_after, quiet, List.append_nil]
    exact unreplayed
  cases performed with
  | issues _ _ _ nonces =>
      exact ⟨remembers.of_quiet forward ⟨rfl, rfl⟩ (.inl nonces), nothing rfl⟩
  | pairs _ _ _ _ _ nonces =>
      exact ⟨remembers.of_quiet forward ⟨rfl, rfl⟩ (.inl nonces), nothing rfl⟩
  | refreshes _ _ _ _ nonces =>
      exact ⟨remembers.of_quiet forward ⟨rfl, rfl⟩ (.inl nonces), nothing rfl⟩
  | revokes => exact ⟨remembers.of_quiet forward ⟨rfl, rfl⟩ (.inl rfl), nothing rfl⟩
  | drops drops =>
      exact ⟨remembers.of_quiet forward ⟨rfl, rfl⟩ drops.nonces, nothing rfl⟩
  | @checks token scope nonce session isCall admits =>
      constructor
      · by_cases empty : nonce = ""
        · have reads : scope ∉ writeScopes := fun writes => admits.named writes empty
          refine remembers.of_quiet forward ⟨?_, ?_⟩ (.inl ?_)
          · simp [GatewayEvent.use, empty]
          · rw [writing_checked, if_neg reads]
          · simp [EcosystemGateway.remember, empty]
        · exact remembers.remember forward empty
      · by_cases writes : scope ∈ writeScopes
        · rw [noReplay_after, writing_checked, if_pos writes]
          have unwritten := remembers.unwritten forward prompt isCall admits writes
          exact unreplayed.append (List.nodup_singleton _) (by simpa using unwritten)
        · exact nothing (by rw [writing_checked, if_neg writes])

/-- A late call is a replay. -/
theorem Remembers.replays (remembers : Remembers settings history)
    (forward : history.Forward call) (late : RepeatsLate settings history call) :
    Remembers settings (history.perform settings call) ∧
      ¬ NoReplay (history.perform settings call).events := by
  rcases isCheck_of_late late with ⟨token, scope, nonce, isCall⟩
  rcases remembers.admits_of_late forward isCall late with
    ⟨writes, written, session, admits⟩
  have performs : history.perform settings call =
      history.after call (history.gateway.remember settings call.second nonce)
        [.checked token session.deviceId scope nonce call.second] := by
    simp only [GatewayHistory.perform, isCall, EcosystemGateway.check_of_admits admits, told]
  rw [performs]
  refine ⟨remembers.remember forward (admits.named writes), fun unreplayed => ?_⟩
  rw [noReplay_after, writing_checked, if_pos writes] at unreplayed
  exact List.disjoint_of_nodup_append unreplayed written (List.mem_singleton_self _)

theorem Remembers.step (remembers : Remembers settings history)
    (unreplayed : NoReplay history.events) (forward : history.Forward call)
    (stepped : step settings history call = some next) :
    Remembers settings next ∧
      (NoReplay next.events ↔ ¬ RepeatsLate settings history call) := by
  rcases step_eq_some.mp stepped with ⟨_, rfl⟩
  by_cases late : RepeatsLate settings history call
  · have replays := remembers.replays forward late
    exact ⟨replays.1, iff_of_false replays.2 (not_not.mpr late)⟩
  · rcases perform_sound settings history call with ⟨left, events, same, performed⟩
    have kept := remembers.perform unreplayed forward late performed
    rw [same]
    exact ⟨kept.1, iff_of_true kept.2 late⟩

theorem noReplay_of_step (stepped : GatewayHistory.step settings history call = some next)
    (unreplayed : NoReplay next.events) : NoReplay history.events := by
  rcases step_eq_some.mp stepped with ⟨_, rfl⟩
  rcases perform_sound settings history call with ⟨left, events, same, _⟩
  rw [same, noReplay_after] at unreplayed
  exact unreplayed.of_append_left

/-- While the clock does not go back, no state-changing call is let through twice exactly when
no live session repeats one after the replay window. -/
theorem noReplay_iff (settings : GatewaySettings) (clock : Int) (calls : List ClockedCall)
    (final : GatewayHistory)
    (forward : StepFunction.Meets (GatewayHistory.step settings) Forward (start clock) calls)
    (reached : StepFunction.run (GatewayHistory.step settings) (start clock) calls =
      some final) :
    NoReplay final.events ↔
      StepFunction.Meets (GatewayHistory.step settings)
        (fun history call => ¬ RepeatsLate settings history call) (start clock) calls :=
  StepFunction.final_iff_meets
    (fun _ _ _ remembers unreplayed forward stepped =>
      remembers.step unreplayed forward stepped)
    (fun _ _ _ stepped unreplayed => noReplay_of_step stepped unreplayed)
    (remembers_start settings clock) .nil forward reached

/-- A phone is paired, and cancels a task. -/
def cancellingCalls : List ClockedCall :=
  [⟨.issuePairingCode "phone-1" "phone" "c0de", 0, 0⟩,
    ⟨.pair "c0de" "0123456789abcdef" "t0ken", 0, 0⟩,
    ⟨.check "t0ken" "cancel" "n-1", 1000000, 1000000⟩]

/-- The same call within the window. -/
def repeatedSoon : List ClockedCall :=
  cancellingCalls ++ [⟨.check "t0ken" "cancel" "n-1", 2000000, 2000000⟩]

/-- The same call behind the window, while the session lives. -/
def repeatedLate : List ClockedCall :=
  cancellingCalls ++ [⟨.check "t0ken" "cancel" "n-1", 302000000, 302000000⟩]

theorem noReplay_repeatedSoon : ∃ final,
    StepFunction.run (GatewayHistory.step {}) (start 0) repeatedSoon = some final ∧
      NoReplay final.events := by
  have forward : StepFunction.Meets (GatewayHistory.step {}) Forward (start 0)
      repeatedSoon := by
    decide
  have prompt : StepFunction.Meets (GatewayHistory.step {})
      (fun history call => ¬ RepeatsLate {} history call) (start 0) repeatedSoon := by
    decide
  exact ⟨_, rfl, (noReplay_iff {} 0 repeatedSoon _ forward rfl).mpr prompt⟩

theorem nonce_accepted_twice : ¬ ∀ calls final,
    StepFunction.Meets (GatewayHistory.step {}) Forward (start 0) calls →
      StepFunction.run (GatewayHistory.step {}) (start 0) calls = some final →
      NoReplay final.events := by
  intro all
  have forward : StepFunction.Meets (GatewayHistory.step {}) Forward (start 0)
      repeatedLate := by
    decide
  have once : [("t0ken", "n-1"), ("t0ken", "n-1")].Nodup := all repeatedLate _ forward rfl
  exact absurd once (by decide)

end GatewayHistory

end Raphael.Interface
