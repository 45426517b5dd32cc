import Raphael.Interface.Gateway

/-! # The clean-up of the gateway

Issuing a pairing code drops what has expired. A code or a session expires behind its last
moment for those who use it, and at that moment for the clean-up. -/

namespace Raphael.Interface

open Foundation

/-! ## What a caller sees -/

namespace EcosystemGateway

/-- Whether a pairing, a refreshment or a check succeeds, and the gateway that a call leaves. -/
def serve (settings : GatewaySettings) (gateway : EcosystemGateway) (call : ClockedCall) :
    Option Bool × EcosystemGateway :=
  match call.call with
  | .issuePairingCode deviceId role code =>
      (none, (gateway.issuePairingCode settings call.first call.second code deviceId role).2)
  | .pair code deviceSecret token =>
      let answer := gateway.pair settings call.first call.second code deviceSecret token
      (some answer.1.isOk, answer.2)
  | .refresh token fresh =>
      let answer := gateway.refresh settings call.first call.second token fresh
      (some answer.1.isOk, answer.2)
  | .revokeToken token => (none, (gateway.revokeToken token).2)
  | .revokeDevice deviceId => (none, gateway.revokeDevice deviceId)
  | .check token scope nonce =>
      let answer := gateway.check settings call.first call.second token scope nonce
      (some answer.1.isOk, answer.2)

/-- Which of the calls succeed, one after the other. -/
def outcomes (settings : GatewaySettings) (gateway : EcosystemGateway) :
    List ClockedCall → List (Option Bool)
  | [] => []
  | call :: rest =>
      (gateway.serve settings call).1 :: outcomes settings (gateway.serve settings call).2 rest

end EcosystemGateway

/-- A step of a history serves its call. -/
theorem GatewayHistory.perform_gateway (settings : GatewaySettings) (history : GatewayHistory)
    (call : ClockedCall) :
    (history.perform settings call).gateway = (history.gateway.serve settings call).2 := by
  unfold GatewayHistory.perform EcosystemGateway.serve
  cases call.call <;> rfl

/-! ## No session of a revoked device -/

/-- The device of every session is not revoked. -/
def SessionsUnrevoked (gateway : EcosystemGateway) : Prop :=
  ∀ token session, gateway.sessions.get token = some session →
    session.deviceId ∉ gateway.revokedDevices

section

variable {settings : GatewaySettings} {gateway left : EcosystemGateway} {now : Int}

theorem SessionsUnrevoked.of_subset (unrevoked : SessionsUnrevoked gateway)
    (sessions : ∀ token session, left.sessions.get token = some session →
      gateway.sessions.get token = some session)
    (revoked : left.revokedDevices = gateway.revokedDevices) : SessionsUnrevoked left := by
  intro token session found
  rw [revoked]
  exact unrevoked token session (sessions token session found)

theorem SessionsUnrevoked.mint (unrevoked : SessionsUnrevoked gateway)
    {token deviceId role : String} (allowed : deviceId ∉ gateway.revokedDevices) :
    SessionsUnrevoked (gateway.mint settings now token deviceId role) := by
  intro other session found
  simp only [EcosystemGateway.mint, Dict.get_set] at found
  split at found
  · cases found
    exact allowed
  · exact unrevoked other session found

theorem SessionsUnrevoked.liveSession (unrevoked : SessionsUnrevoked gateway)
    (token : String) : SessionsUnrevoked (gateway.liveSession now token).2 := by
  unfold EcosystemGateway.liveSession
  split
  · exact unrevoked
  · split
    · exact unrevoked
    · split
      · exact unrevoked.of_subset (fun _ _ found => (Dict.get_erase_eq_some.mp found).1) rfl
      · exact unrevoked

/-- Using a nonce changes nothing else. -/
theorem EcosystemGateway.useNonce_gateway (gateway : EcosystemGateway)
    (settings : GatewaySettings) (now : Int) (nonce : String) :
    (gateway.useNonce settings now nonce).2 =
      { gateway with nonces := (gateway.useNonce settings now nonce).2.nonces } := by
  unfold EcosystemGateway.useNonce
  dsimp only
  split <;> rfl

/-- No call leaves a session of a revoked device. -/
theorem SessionsUnrevoked.serve (unrevoked : SessionsUnrevoked gateway) (call : ClockedCall) :
    SessionsUnrevoked (gateway.serve settings call).2 := by
  rcases call with ⟨call, first, second⟩
  cases call with
  | issuePairingCode deviceId role code =>
      simp only [EcosystemGateway.serve, EcosystemGateway.issuePairingCode]
      split
      · exact unrevoked.of_subset (fun _ _ found => (Dict.get_filter_eq_some.mp found).1) rfl
      · exact unrevoked
  | pair code deviceSecret token =>
      simp only [EcosystemGateway.serve, EcosystemGateway.pair]
      split
      · exact unrevoked
      · next entry _ =>
          split
          · exact unrevoked
          · split
            · exact unrevoked
            · split
              · exact unrevoked
              · apply SessionsUnrevoked.mint
                · intro other session found revoked
                  exact unrevoked other session found (List.mem_filter.mp revoked).1
                · simp
  | refresh token fresh =>
      simp only [EcosystemGateway.serve, EcosystemGateway.refresh]
      rcases EcosystemGateway.liveSession_cases gateway first token with
        ⟨session, live, answered⟩ | ⟨error, left, answered, -⟩
      · rw [answered]
        apply SessionsUnrevoked.mint
        · exact unrevoked.of_subset (fun _ _ found => (Dict.get_erase_eq_some.mp found).1) rfl
        · exact live.unrevoked
      · have kept := @SessionsUnrevoked.liveSession gateway first unrevoked token
        rw [answered] at kept ⊢
        exact kept
  | revokeToken token =>
      exact unrevoked.of_subset (fun _ _ found => (Dict.get_erase_eq_some.mp found).1) rfl
  | revokeDevice deviceId =>
      intro token session found
      rcases Dict.get_filter_eq_some.mp found with ⟨held, differs⟩
      intro revoked
      rcases List.mem_cons.mp revoked with same | before
      · exact of_decide_eq_true differs same
      · exact unrevoked token session held before
  | check token scope nonce =>
      have kept := @SessionsUnrevoked.liveSession gateway first unrevoked token
      simp only [EcosystemGateway.serve, EcosystemGateway.check]
      rcases answered : gateway.liveSession first token with ⟨_ | session, left⟩
      · rw [answered] at kept
        exact kept
      · rw [answered] at kept
        dsimp only
        split
        · exact kept
        · split
          · exact kept
          · split
            · exact kept
            · have nonces := left.useNonce_gateway settings second nonce
              rcases used : left.useNonce settings second nonce with ⟨_ | _, behind⟩
              all_goals
                rw [used] at nonces
                rw [nonces]
                exact kept

namespace EcosystemGateway

variable {token : String} {session : DeviceSession}

theorem liveSession_unknown (missing : gateway.sessions.get token = none) :
    gateway.liveSession now token = (.error (.other "unknown session token"), gateway) := by
  simp only [liveSession, missing]

theorem liveSession_revoked (found : gateway.sessions.get token = some session)
    (revoked : session.deviceId ∈ gateway.revokedDevices) :
    gateway.liveSession now token = (.error (.other "device revoked"), gateway) := by
  simp [liveSession, found, revoked]

theorem liveSession_expired (found : gateway.sessions.get token = some session)
    (unrevoked : session.deviceId ∉ gateway.revokedDevices)
    (expired : session.expiresAt < now) :
    gateway.liveSession now token = (.error (.other "session expired"),
      { gateway with sessions := gateway.sessions.erase token }) := by
  simp [liveSession, found, unrevoked, expired]

end EcosystemGateway

/-! ## The full and the cleaned gateway -/

/-- Codes that a clean-up at `first` drops: used ones, and unused ones that are not out of date
before it. -/
def LapsedCode (before : EcosystemGateway) (first : Int) (code : String)
    (entry : PairingEntry) : Prop :=
  entry.used = true ∨ before.codes.get code = some entry ∧ entry.expires ≤ first

def LapsedSession (before : EcosystemGateway) (first : Int) (token : String)
    (session : DeviceSession) : Prop :=
  before.sessions.get token = some session ∧ session.expiresAt ≤ first

/-- Two gateways that differ in what a clean-up at `first` has dropped, and in the code that was
issued with it. -/
structure Cleaned (before : EcosystemGateway) (first : Int) (issued : String)
    (full thin : EcosystemGateway) : Prop where
  codes : Thinned (· ≠ issued) (LapsedCode before first) full.codes thin.codes
  sessions : Thinned (fun _ => True) (LapsedSession before first) full.sessions thin.sessions
  secrets : thin.secrets = full.secrets
  revoked : thin.revokedDevices = full.revokedDevices
  nonces : thin.nonces = full.nonces

/-- The call uses no code and no session that expired up to `first` without being out of date at
its own reading of the clock, and does not know the code that was issued. -/
def Outlasts (before : EcosystemGateway) (first : Int) (issued : String)
    (call : ClockedCall) : Prop :=
  match call.call with
  | .pair code _ _ => code ≠ issued ∧ ∀ entry, before.codes.get code = some entry →
      entry.used = false → entry.expires ≤ first → entry.expires < call.first
  | .refresh token _ | .check token _ _ => ∀ session,
      before.sessions.get token = some session → session.expiresAt ≤ first →
        session.expiresAt < call.first
  | .issuePairingCode _ _ _ | .revokeToken _ | .revokeDevice _ => True

namespace Cleaned

variable {before full thin : EcosystemGateway} {first : Int} {issued : String}

theorem gc (cleaned : Cleaned before first issued full thin) (now : Int) :
    Cleaned before first issued (full.gc now) (thin.gc now) where
  codes := by
    simp only [EcosystemGateway.gc]
    exact cleaned.codes.filter _
  sessions := by
    simp only [EcosystemGateway.gc, cleaned.revoked]
    exact cleaned.sessions.filter _
  secrets := cleaned.secrets
  revoked := cleaned.revoked
  nonces := cleaned.nonces

theorem mint (cleaned : Cleaned before first issued full thin) (token deviceId role : String) :
    Cleaned before first issued (full.mint settings now token deviceId role)
      (thin.mint settings now token deviceId role) where
  codes := cleaned.codes
  sessions := cleaned.sessions.set _ _
  secrets := cleaned.secrets
  revoked := cleaned.revoked
  nonces := cleaned.nonces

theorem eraseSession (cleaned : Cleaned before first issued full thin) (token : String) :
    Cleaned before first issued { full with sessions := full.sessions.erase token }
      { thin with sessions := thin.sessions.erase token } where
  codes := cleaned.codes
  sessions := cleaned.sessions.erase token
  secrets := cleaned.secrets
  revoked := cleaned.revoked
  nonces := cleaned.nonces

open EcosystemGateway in
/-- The same session is live in both, or none is in either. -/
theorem liveSession (cleaned : Cleaned before first issued full thin) {token : String}
    (late : ∀ session, before.sessions.get token = some session →
      session.expiresAt ≤ first → session.expiresAt < now) :
    (∃ session, full.liveSession now token = (.ok session, full) ∧
      thin.liveSession now token = (.ok session, thin)) ∨
    ∃ error other full' thin', full.liveSession now token = (.error error, full') ∧
      thin.liveSession now token = (.error other, thin') ∧
        Cleaned before first issued full' thin' := by
  rcases @Thinned.same_or_lapsed _ _ _ _ _ _ _ cleaned.sessions token trivial with
    same | ⟨session, inFull, missing, lapsed⟩
  · cases found : full.sessions.get token with
    | none =>
        rw [found] at same
        exact .inr ⟨_, _, full, thin, liveSession_unknown found, liveSession_unknown same,
          cleaned⟩
    | some session =>
        rw [found] at same
        by_cases revoked : session.deviceId ∈ full.revokedDevices
        · exact .inr ⟨_, _, full, thin, liveSession_revoked found revoked,
            liveSession_revoked same (cleaned.revoked ▸ revoked), cleaned⟩
        · have inThin : session.deviceId ∉ thin.revokedDevices := cleaned.revoked ▸ revoked
          by_cases expired : session.expiresAt < now
          · exact .inr ⟨_, _, _, _, liveSession_expired found revoked expired,
              liveSession_expired same inThin expired, cleaned.eraseSession token⟩
          · exact .inl ⟨session, liveSession_of_live ⟨found, revoked, Int.not_lt.mp expired⟩,
              liveSession_of_live ⟨same, inThin, Int.not_lt.mp expired⟩⟩
  · have expired := late session lapsed.1 lapsed.2
    by_cases revoked : session.deviceId ∈ full.revokedDevices
    · exact .inr ⟨_, _, full, thin, liveSession_revoked inFull revoked,
        liveSession_unknown missing, cleaned⟩
    · exact .inr ⟨_, _, _, thin, liveSession_expired inFull revoked expired,
        liveSession_unknown missing,
        { cleaned with sessions := cleaned.sessions.erase_full missing }⟩

/-- A code is redeemed in both, or in neither. -/
theorem pair (cleaned : Cleaned before first issued full thin) {reading second : Int}
    {code deviceSecret token : String} (unknown : code ≠ issued)
    (late : ∀ entry, before.codes.get code = some entry → entry.used = false →
      entry.expires ≤ first → entry.expires < reading) :
    (full.pair settings reading second code deviceSecret token).1.isOk =
        (thin.pair settings reading second code deviceSecret token).1.isOk ∧
      Cleaned before first issued
        (full.pair settings reading second code deviceSecret token).2
        (thin.pair settings reading second code deviceSecret token).2 := by
  rcases cleaned.codes.same_or_lapsed unknown with same | ⟨entry, inFull, missing, lapsed⟩
  · simp only [EcosystemGateway.pair, same]
    split
    · exact ⟨rfl, cleaned⟩
    · next entry _ =>
        split
        · exact ⟨rfl, cleaned⟩
        · split
          · exact ⟨rfl, cleaned⟩
          · split
            · exact ⟨rfl, cleaned⟩
            · refine ⟨rfl, Cleaned.mint ?_ token entry.deviceId entry.role⟩
              constructor
              · exact cleaned.codes.set _ _
              · exact cleaned.sessions
              · simp only [cleaned.secrets]
              · simp only [cleaned.revoked]
              · exact cleaned.nonces
  · have refused : thin.pair settings reading second code deviceSecret token =
        (.error (.other "invalid or reused pairing code"), thin) := by
      simp only [EcosystemGateway.pair, missing]
    have alsoRefused : ∃ error, full.pair settings reading second code deviceSecret token =
        (.error error, full) := by
      simp only [EcosystemGateway.pair, inFull]
      by_cases used : entry.used = true
      · exact ⟨_, if_pos used⟩
      · rw [if_neg used]
        have held := lapsed.resolve_left used
        exact ⟨_, if_pos (late entry held.1 (Bool.not_eq_true _ ▸ used) held.2)⟩
    rcases alsoRefused with ⟨error, alsoRefused⟩
    rw [refused, alsoRefused]
    exact ⟨rfl, cleaned⟩

theorem refresh (cleaned : Cleaned before first issued full thin) {reading second : Int}
    {token fresh : String} (late : ∀ session, before.sessions.get token = some session →
      session.expiresAt ≤ first → session.expiresAt < reading) :
    (full.refresh settings reading second token fresh).1.isOk =
        (thin.refresh settings reading second token fresh).1.isOk ∧
      Cleaned before first issued (full.refresh settings reading second token fresh).2
        (thin.refresh settings reading second token fresh).2 := by
  rcases cleaned.liveSession late with ⟨session, inFull, inThin⟩ |
    ⟨error, other, full', thin', inFull, inThin, kept⟩
  · simp only [EcosystemGateway.refresh, inFull, inThin]
    exact ⟨trivial, (cleaned.eraseSession token).mint fresh session.deviceId session.role⟩
  · simp only [EcosystemGateway.refresh, inFull, inThin]
    exact ⟨rfl, kept⟩

theorem check (cleaned : Cleaned before first issued full thin) {reading second : Int}
    {token scope nonce : String} (late : ∀ session, before.sessions.get token = some session →
      session.expiresAt ≤ first → session.expiresAt < reading) :
    (full.check settings reading second token scope nonce).1.isOk =
        (thin.check settings reading second token scope nonce).1.isOk ∧
      Cleaned before first issued (full.check settings reading second token scope nonce).2
        (thin.check settings reading second token scope nonce).2 := by
  rcases cleaned.liveSession late with ⟨session, inFull, inThin⟩ |
    ⟨error, other, full', thin', inFull, inThin, kept⟩
  · simp only [EcosystemGateway.check, inFull, inThin]
    split
    · exact ⟨rfl, cleaned⟩
    · split
      · exact ⟨rfl, cleaned⟩
      · split
        · exact ⟨rfl, cleaned⟩
        · simp only [EcosystemGateway.useNonce, EcosystemGateway.recentNonces, cleaned.nonces]
          by_cases used : (full.nonces.dropWhile fun used =>
              settings.replayWindow < second - used.2).any (·.1 == nonce) = true
          · simp only [used, if_true]
            exact ⟨trivial, { cleaned with nonces := rfl }⟩
          · simp only [used, if_false, Bool.false_eq_true]
            exact ⟨trivial, { cleaned with nonces := rfl }⟩
  · simp only [EcosystemGateway.check, inFull, inThin]
    exact ⟨rfl, kept⟩

/-- A call that outlasts the clean-up has the same outcome in both. -/
theorem serve (cleaned : Cleaned before first issued full thin) {call : ClockedCall}
    (outlasts : Outlasts before first issued call) :
    (full.serve settings call).1 = (thin.serve settings call).1 ∧
      Cleaned before first issued (full.serve settings call).2 (thin.serve settings call).2 := by
  rcases call with ⟨call, reading, second⟩
  cases call with
  | issuePairingCode deviceId role code =>
      simp only [EcosystemGateway.serve, EcosystemGateway.issuePairingCode]
      split
      · have kept := cleaned.gc reading
        exact ⟨trivial, { kept with codes := kept.codes.set _ _ }⟩
      · exact ⟨trivial, cleaned⟩
  | pair code deviceSecret token =>
      have same := @Cleaned.pair settings _ _ _ _ _ cleaned reading second code deviceSecret token
        outlasts.1 outlasts.2
      exact ⟨congrArg some same.1, same.2⟩
  | refresh token fresh =>
      have same := @Cleaned.refresh settings _ _ _ _ _ cleaned reading second token fresh outlasts
      exact ⟨congrArg some same.1, same.2⟩
  | revokeToken token => exact ⟨rfl, cleaned.eraseSession token⟩
  | revokeDevice deviceId =>
      refine ⟨rfl, ?_⟩
      constructor
      · exact cleaned.codes
      · simp only [EcosystemGateway.serve, EcosystemGateway.revokeDevice]
        exact cleaned.sessions.filter _
      · simp only [EcosystemGateway.serve, EcosystemGateway.revokeDevice, cleaned.secrets]
      · simp only [EcosystemGateway.serve, EcosystemGateway.revokeDevice, cleaned.revoked]
      · exact cleaned.nonces
  | check token scope nonce =>
      have same := @Cleaned.check settings _ _ _ _ _ cleaned reading second token scope nonce
        outlasts
      exact ⟨congrArg some same.1, same.2⟩

/-- Calls that outlast the clean-up have the same outcomes in both. -/
theorem outcomes (cleaned : Cleaned before first issued full thin) {calls : List ClockedCall}
    (outlast : ∀ call ∈ calls, Outlasts before first issued call) :
    full.outcomes settings calls = thin.outcomes settings calls := by
  induction calls generalizing full thin with
  | nil => rfl
  | cons call rest induction =>
      have same := @Cleaned.serve settings _ _ _ _ _ cleaned call
        (outlast call List.mem_cons_self)
      rw [EcosystemGateway.outcomes, EcosystemGateway.outcomes, same.1,
        induction same.2 fun later member => outlast later (List.mem_cons_of_mem call member)]

/-- A gateway and what a clean-up leaves of it. -/
theorem start (unrevoked : SessionsUnrevoked gateway) (first second : Int)
    (code deviceId role : String) :
    Cleaned gateway first code gateway
      (gateway.issuePairingCode settings first second code deviceId role).2 := by
  have same : Cleaned gateway first code gateway gateway := by
    refine ⟨⟨fun _ _ _ found => found, ?_⟩, ⟨fun _ _ _ found => found, ?_⟩, rfl, rfl, rfl⟩
    · intro key _ value found missing
      rw [found] at missing
      cases missing
    · intro key _ value found missing
      rw [found] at missing
      cases missing
  unfold EcosystemGateway.issuePairingCode
  split
  · constructor
    · apply Thinned.set_hidden _ (fun visible => visible rfl)
      simp only [EcosystemGateway.gc]
      apply thinned_filter
      intro key entry found dropped
      rw [Bool.and_eq_false_iff, Bool.not_eq_false'] at dropped
      rcases dropped with used | expired
      · exact .inl used
      · exact .inr ⟨found, Int.not_lt.mp (of_decide_eq_false expired)⟩
    · simp only [EcosystemGateway.gc]
      apply thinned_filter
      intro token session found dropped
      have unrevoked := unrevoked token session found
      refine ⟨found, ?_⟩
      simpa [unrevoked] using dropped
    · rfl
    · rfl
    · rfl
  · exact same

end Cleaned

end

/-! ## Histories -/

/-- In every history there is no session of a revoked device. -/
theorem GatewayHistory.sessionsUnrevoked {settings : GatewaySettings} {clock : Int}
    {calls : List ClockedCall} {history : GatewayHistory}
    (reached : (GatewayHistory.step settings).run (GatewayHistory.start clock) calls =
      some history) : SessionsUnrevoked history.gateway := by
  refine @StepFunction.invariant_of_run _ _ _ (fun history => SessionsUnrevoked history.gateway)
    ?_ _ _ _ ?_ reached
  · intro history call next unrevoked stepped
    rw [← (GatewayHistory.step_eq_some.mp stepped).2, GatewayHistory.perform_gateway]
    exact unrevoked.serve call
  · exact fun _ _ found => nomatch found

/-- A pairing code that is issued at some point of a history changes no outcome of the calls
behind it, if these outlast the clean-up. -/
theorem GatewayHistory.outcomes_of_outlasts {settings : GatewaySettings} {clock : Int}
    {calls : List ClockedCall} {history : GatewayHistory}
    (reached : (GatewayHistory.step settings).run (GatewayHistory.start clock) calls =
      some history)
    (first second : Int) (deviceId role code : String) {later : List ClockedCall}
    (outlast : ∀ call ∈ later, Outlasts history.gateway first code call) :
    history.gateway.outcomes settings later =
      (history.perform settings
        ⟨.issuePairingCode deviceId role code, first, second⟩).gateway.outcomes settings later := by
  rw [GatewayHistory.perform_gateway]
  have cleaned := @Cleaned.start settings _ (GatewayHistory.sessionsUnrevoked reached) first
    second code deviceId role
  exact cleaned.outcomes outlast

/-- A phone is paired, and its session lasts up to the moment 3600000001. -/
def pairedCalls : List ClockedCall := [
  ⟨.issuePairingCode "phone-1" "phone" "c1", 0, 0⟩,
  ⟨.pair "c1" "0123456789abcdef" "t1", 1, 1⟩]

def pairedHistory : GatewayHistory :=
  ((GatewayHistory.step {}).run (GatewayHistory.start 0) pairedCalls).getD
    (GatewayHistory.start 0)

theorem pairedHistory_reached :
    (GatewayHistory.step {}).run (GatewayHistory.start 0) pairedCalls = some pairedHistory := rfl

def boxCall (moment : Int) : ClockedCall :=
  ⟨.issuePairingCode "box-1" "hardware" "c2", moment, moment⟩

def phoneCall (moment : Int) : ClockedCall := ⟨.check "t1" "status" "", moment, moment⟩

/-- At that moment a code is issued for another device, and the phone's call is refused. -/
theorem cleanup_observed :
    (GatewayHistory.step {}).run (GatewayHistory.start 0) pairedCalls = some pairedHistory ∧
      (GatewayHistory.step {} pairedHistory (boxCall 3600000001)).isSome ∧
      pairedHistory.gateway.outcomes {} [phoneCall 3600000001] = [some true] ∧
      (pairedHistory.perform {} (boxCall 3600000001)).gateway.outcomes {}
        [phoneCall 3600000001] = [some false] :=
  ⟨pairedHistory_reached, by decide +kernel, by decide +kernel, by decide +kernel⟩

/-- A moment later the phone's call is refused with and without the clean-up. -/
theorem cleanup_unobserved_later :
    pairedHistory.gateway.outcomes {} [phoneCall 3600000002] =
      (pairedHistory.perform {} (boxCall 3600000001)).gateway.outcomes {}
        [phoneCall 3600000002] :=
  GatewayHistory.outcomes_of_outlasts pairedHistory_reached 3600000001 3600000001 "box-1"
    "hardware" "c2" (by
      intro call member
      cases List.mem_singleton.mp member
      intro session found _
      cases found
      decide)

end Raphael.Interface
