import Raphael.Core.Errors
import Raphael.Foundation.Dict
import Raphael.Foundation.StepSystem

/-! # The device gateway

Pairing codes, sessions and nonces of the thin devices. Times are microseconds. An
operation is given its readings of the clock, and the token that it draws. -/

namespace Raphael.Interface

open Core Foundation

def phoneScopes : List String :=
  ["status", "tasks", "cancel", "permissions-view", "awareness", "decide"]

def hardwareScopes : List String :=
  ["status", "approve-record", "deny-cancel", "stop", "model-note"]

/-- Scopes with side effects require a fresh nonce. -/
def writeScopes : List String := ["tasks", "cancel", "decide"]

structure GatewaySettings where
  codeTtl : Int := 300000000
  sessionTtl : Int := 3600000000
  replayWindow : Int := 300000000

/-- What is kept of a pairing code. -/
structure PairingEntry where
  deviceId : String
  role : String
  expires : Int
  used : Bool := false
  deriving DecidableEq

structure DeviceSession where
  token : String
  deviceId : String
  role : String
  scopes : List String
  expiresAt : Int
  deriving DecidableEq

structure EcosystemGateway where
  codes : Dict String PairingEntry := .empty
  secrets : Dict String String := .empty
  sessions : Dict String DeviceSession := .empty
  revokedDevices : List String := []
  /-- The nonces with the times of their uses, in that order. -/
  nonces : List (String × Int) := []

/-- What an operation answers, and the gateway that it leaves. -/
abbrev GatewayAnswer (answer : Type) := Except Error answer × EcosystemGateway

namespace EcosystemGateway

variable (settings : GatewaySettings) (gateway : EcosystemGateway)

/-- `_gc`. -/
def gc (now : Int) : EcosystemGateway :=
  { gateway with
    codes := gateway.codes.filter fun _ entry => !entry.used && now < entry.expires
    sessions := gateway.sessions.filter fun _ session =>
      now < session.expiresAt && !gateway.revokedDevices.contains session.deviceId }

/-- `_mint`. -/
def mint (now : Int) (token deviceId role : String) : EcosystemGateway :=
  { gateway with
    sessions := gateway.sessions.set token {
      token, deviceId, role
      scopes := if role = "phone" then phoneScopes else hardwareScopes
      expiresAt := now + settings.sessionTtl } }

/-- `_live_session`: a session that is found expired is dropped. -/
def liveSession (now : Int) (token : String) : GatewayAnswer DeviceSession :=
  match gateway.sessions.get token with
  | none => (.error (.other "unknown session token"), gateway)
  | some session =>
      if gateway.revokedDevices.contains session.deviceId then
        (.error (.other "device revoked"), gateway)
      else if session.expiresAt < now then
        (.error (.other "session expired"),
          { gateway with sessions := gateway.sessions.erase token })
      else (.ok session, gateway)

/-- The nonces that `_use_nonce` does not drop. -/
def recentNonces (now : Int) : List (String × Int) :=
  gateway.nonces.dropWhile fun used => settings.replayWindow < now - used.2

/-- `_use_nonce`. -/
def useNonce (now : Int) (nonce : String) : GatewayAnswer Unit :=
  let recent := gateway.recentNonces settings now
  if recent.any (·.1 == nonce) then
    (.error (.other "replayed request rejected"), { gateway with nonces := recent })
  else (.ok (), { gateway with nonces := recent ++ [(nonce, now)] })

/-- `issue_pairing_code`, for the code that is drawn. -/
def issuePairingCode (first second : Int) (code deviceId role : String) :
    GatewayAnswer String :=
  if role = "phone" ∨ role = "hardware" then
    let kept := gateway.gc first
    (.ok code, { kept with
      codes := kept.codes.set code {
        deviceId, role
        expires := second + settings.codeTtl } })
  else (.error (.domainValidation ("unknown device role " ++ Text.repr role)), gateway)

/-- The strength that `pair` asks of a device's secret. -/
def strongSecret (secret : String) : Bool :=
  16 ≤ secret.length && 8 ≤ secret.toList.eraseDups.length

/-- `pair`, for the token that is drawn. -/
def pair (first second : Int) (code deviceSecret token : String) : GatewayAnswer String :=
  match gateway.codes.get code with
  | none => (.error (.other "invalid or reused pairing code"), gateway)
  | some entry =>
      if entry.used then (.error (.other "invalid or reused pairing code"), gateway)
      else if entry.expires < first then (.error (.other "pairing code expired"), gateway)
      else if !strongSecret deviceSecret then
        (.error (.other "device secret too weak"), gateway)
      else
        let paired := { gateway with
          codes := gateway.codes.set code { entry with used := true }
          secrets := gateway.secrets.set entry.deviceId deviceSecret
          revokedDevices := gateway.revokedDevices.filter (· ≠ entry.deviceId) }
        (.ok token, paired.mint settings second token entry.deviceId entry.role)

/-- `refresh`, for the token that is drawn. -/
def refresh (first second : Int) (token fresh : String) : GatewayAnswer String :=
  match gateway.liveSession first token with
  | (.error error, left) => (.error error, left)
  | (.ok session, left) =>
      let without := { left with sessions := left.sessions.erase token }
      (.ok fresh, without.mint settings second fresh session.deviceId session.role)

def revokeToken (token : String) : Bool × EcosystemGateway :=
  ((gateway.sessions.get token).isSome,
    { gateway with sessions := gateway.sessions.erase token })

def revokeDevice (deviceId : String) : EcosystemGateway :=
  { gateway with
    sessions := gateway.sessions.filter fun _ session => session.deviceId ≠ deviceId
    secrets := gateway.secrets.erase deviceId
    revokedDevices := deviceId :: gateway.revokedDevices }

def check (first second : Int) (token scope nonce : String) : GatewayAnswer DeviceSession :=
  match gateway.liveSession first token with
  | (.error error, left) => (.error error, left)
  | (.ok session, left) =>
      if !session.scopes.contains scope then
        (.error (.other ("scope " ++ Text.repr scope ++ " not granted to " ++
          session.role)), left)
      else if writeScopes.contains scope && nonce = "" then
        (.error (.other "state-changing calls require a nonce"), left)
      else if nonce = "" then (.ok session, left)
      else
        match left.useNonce settings second nonce with
        | (.error error, left) => (.error error, left)
        | (.ok _, left) => (.ok session, left)

/-- `device_secret`. -/
def deviceSecret (deviceId : String) : Option String := gateway.secrets.get deviceId

end EcosystemGateway

namespace EcosystemGateway

variable {settings : GatewaySettings} {gateway left : EcosystemGateway}
  {first second now : Int} {token : String} {session : DeviceSession}

/-- An unused code for the device is out. -/
def outstanding (gateway : EcosystemGateway) (deviceId : String) : Bool :=
  gateway.codes.entries.any fun code => !code.2.used && code.2.deviceId == deviceId

theorem outstanding_iff {deviceId : String} :
    gateway.outstanding deviceId = true ↔ ∃ code entry,
      gateway.codes.get code = some entry ∧ entry.used = false ∧ entry.deviceId = deviceId := by
  simp [outstanding, Dict.get_eq_some_iff]

/-- A code that is out is redeemed, with a secret that is strong enough. -/
theorem pair_of_unused {code deviceSecret : String} {entry : PairingEntry}
    (found : gateway.codes.get code = some entry) (unused : entry.used = false)
    (unexpired : first ≤ entry.expires) (strong : strongSecret deviceSecret = true) :
    (gateway.pair settings first second code deviceSecret token).1 = .ok token := by
  have unexpired := Int.not_lt.mpr unexpired
  simp [pair, found, unused, unexpired, strong]

/-- A session is live: it is known, its device is not revoked, and it has not expired. -/
structure Live (gateway : EcosystemGateway) (now : Int) (token : String)
    (session : DeviceSession) : Prop where
  known : gateway.sessions.get token = some session
  unrevoked : session.deviceId ∉ gateway.revokedDevices
  unexpired : now ≤ session.expiresAt

theorem liveSession_of_live (live : gateway.Live now token session) :
    gateway.liveSession now token = (.ok session, gateway) := by
  have unrevoked := live.unrevoked
  have unexpired := Int.not_lt.mpr live.unexpired
  simp [liveSession, live.known, unrevoked, unexpired]

/-- Nothing but expired sessions is gone. -/
structure Drops (settings : GatewaySettings) (now : Int) (gateway left : EcosystemGateway) :
    Prop where
  codes : left.codes = gateway.codes
  sessions : ∀ token session, left.sessions.get token = some session →
    gateway.sessions.get token = some session
  nonces : left.nonces = gateway.nonces ∨ left.nonces = gateway.recentNonces settings now

theorem Drops.refl (gateway : EcosystemGateway) : Drops settings now gateway gateway :=
  ⟨rfl, fun _ _ found => found, .inl rfl⟩

/-- `_live_session` answers with a live session, or drops an expired one. -/
theorem liveSession_cases (gateway : EcosystemGateway) (now : Int) (token : String) :
    (∃ session, gateway.Live now token session ∧
      gateway.liveSession now token = (.ok session, gateway)) ∨
    ∃ error left, gateway.liveSession now token = (.error error, left) ∧
      ∀ settings now, Drops settings now gateway left := by
  cases found : gateway.sessions.get token with
  | none =>
      exact .inr ⟨.other "unknown session token", gateway, by simp only [liveSession, found],
        fun _ _ => .refl gateway⟩
  | some session =>
      by_cases revoked : session.deviceId ∈ gateway.revokedDevices
      · refine .inr ⟨.other "device revoked", gateway, ?_, fun _ _ => .refl gateway⟩
        simp [liveSession, found, revoked]
      · by_cases expired : session.expiresAt < now
        · refine .inr ⟨.other "session expired",
            { gateway with sessions := gateway.sessions.erase token }, ?_, fun _ _ => ?_⟩
          · simp [liveSession, found, revoked, expired]
          · exact ⟨rfl, fun _ _ kept => (Dict.get_erase_eq_some.mp kept).1, .inl rfl⟩
        · have live : gateway.Live now token session :=
            ⟨found, revoked, Int.not_lt.mp expired⟩
          exact .inl ⟨session, live, liveSession_of_live live⟩

/-- A call of `check` is let through. -/
structure Admits (settings : GatewaySettings) (gateway : EcosystemGateway)
    (first second : Int) (token scope nonce : String) (session : DeviceSession) : Prop where
  live : gateway.Live first token session
  granted : scope ∈ session.scopes
  named : scope ∈ writeScopes → nonce ≠ ""
  unused : nonce ≠ "" → ∀ used ∈ gateway.recentNonces settings second, used.1 ≠ nonce

/-- The gateway behind a call of `check` that was let through. -/
def remember (settings : GatewaySettings) (gateway : EcosystemGateway) (now : Int)
    (nonce : String) : EcosystemGateway :=
  if nonce = "" then gateway
  else { gateway with nonces := gateway.recentNonces settings now ++ [(nonce, now)] }

theorem check_of_admits {scope nonce : String}
    (admits : gateway.Admits settings first second token scope nonce session) :
    gateway.check settings first second token scope nonce =
      (.ok session, gateway.remember settings second nonce) := by
  have granted := List.contains_iff_mem.mpr admits.granted
  have unnamed : ¬ (writeScopes.contains scope && decide (nonce = "")) = true := by
    intro both
    rw [Bool.and_eq_true, List.contains_iff_mem, decide_eq_true_iff] at both
    exact admits.named both.1 both.2
  simp only [check, liveSession_of_live admits.live, granted, unnamed]
  by_cases empty : nonce = ""
  · simp [empty, remember]
  · have unused : ¬ (gateway.recentNonces settings second).any (·.1 == nonce) = true := by
      intro held
      rcases List.any_eq_true.mp held with ⟨used, member, same⟩
      exact admits.unused empty used member (beq_iff_eq.mp same)
    simp [empty, remember, useNonce, unused]

/-- A call of `check` is let through, or only drops sessions and nonces. -/
theorem check_cases (settings : GatewaySettings) (gateway : EcosystemGateway)
    (first second : Int) (token scope nonce : String) :
    (∃ session, gateway.Admits settings first second token scope nonce session) ∨
    ∃ error left, gateway.check settings first second token scope nonce =
      (.error error, left) ∧ Drops settings second gateway left := by
  rcases liveSession_cases gateway first token with ⟨session, live, answered⟩ |
    ⟨error, left, answered, drops⟩
  · by_cases granted : scope ∈ session.scopes
    · by_cases named : scope ∈ writeScopes → nonce ≠ ""
      · by_cases unused : nonce ≠ "" →
            ∀ used ∈ gateway.recentNonces settings second, used.1 ≠ nonce
        · exact .inl ⟨session, live, granted, named, unused⟩
        · rw [Classical.not_imp] at unused
          rcases unused with ⟨nonempty, used⟩
          have held : (gateway.recentNonces settings second).any (·.1 == nonce) = true := by
            simpa using used
          refine .inr ⟨.other "replayed request rejected",
            { gateway with nonces := gateway.recentNonces settings second }, ?_,
            rfl, fun _ _ found => found, .inr rfl⟩
          simp [check, answered, granted, nonempty, useNonce, held]
      · rw [Classical.not_imp, not_not] at named
        rcases named with ⟨writes, rfl⟩
        refine .inr ⟨.other "state-changing calls require a nonce", gateway, ?_, .refl gateway⟩
        simp [check, answered, granted, writes]
    · refine .inr ⟨.other ("scope " ++ Text.repr scope ++ " not granted to " ++ session.role),
        gateway, ?_, .refl gateway⟩
      simp [check, answered, granted]
  · exact .inr ⟨error, left, by simp only [check, answered], drops settings second⟩

end EcosystemGateway

/-! ## Histories of calls -/

/-- What has succeeded. -/
inductive GatewayEvent
  | issued (code deviceId : String)
  | paired (code deviceId token : String)
  | refreshed (deviceId token : String)
  | revoked (deviceId : String)
  /-- A call of `check` that was let through at a reading of the clock. -/
  | checked (token deviceId scope nonce : String) (moment : Int)
  deriving DecidableEq

namespace GatewayEvent

/-- A pairing, a refreshment or a check on behalf of a device. -/
def OnBehalfOf (deviceId : String) : GatewayEvent → Prop
  | .paired _ device _ | .refreshed device _ | .checked _ device _ _ _ => device = deviceId
  | .issued _ _ | .revoked _ => False

/-- The code that was redeemed. -/
def redeemed : GatewayEvent → Option String
  | .paired code _ _ => some code
  | _ => none

/-- The token and the nonce of a state-changing call. -/
def writing : GatewayEvent → Option (String × String)
  | .checked token _ scope nonce _ =>
      if writeScopes.contains scope then some (token, nonce) else none
  | _ => none

end GatewayEvent

/-- A call, with the tokens that it may draw. -/
inductive GatewayCall
  | issuePairingCode (deviceId role code : String)
  | pair (code deviceSecret token : String)
  | refresh (token fresh : String)
  | revokeToken (token : String)
  | revokeDevice (deviceId : String)
  | check (token scope nonce : String)

/-- The token that a call draws, if it draws one. -/
def GatewayCall.draw : GatewayCall → Option String
  | .issuePairingCode _ _ code => some code
  | .pair _ _ token => some token
  | .refresh _ fresh => some fresh
  | .revokeToken _ | .revokeDevice _ | .check _ _ _ => none

/-- A call with its readings of the clock; a call reads it twice at most. -/
structure ClockedCall where
  call : GatewayCall
  first : Int
  second : Int

/-- A session is minted under a token, and other sessions may be gone. -/
def Mints (settings : GatewaySettings) (now : Int) (token deviceId : String)
    (gateway left : EcosystemGateway) : Prop :=
  ∀ other session, left.sessions.get other = some session →
    (other = token ∧ session.deviceId = deviceId ∧
      session.expiresAt = now + settings.sessionTtl) ∨
    (other ≠ token ∧ gateway.sessions.get other = some session)

/-- The gateway that a call leaves, and what has succeeded. -/
inductive Performed (settings : GatewaySettings) (gateway : EcosystemGateway)
    (call : ClockedCall) : EcosystemGateway → List GatewayEvent → Prop
  | issues {deviceId role code left} : call.call = .issuePairingCode deviceId role code →
      (∀ other entry, left.codes.get other = some entry →
        (other = code ∧ entry.deviceId = deviceId) ∨
        (other ≠ code ∧ gateway.codes.get other = some entry)) →
      (∀ token session, left.sessions.get token = some session →
        gateway.sessions.get token = some session) →
      left.nonces = gateway.nonces →
      Performed settings gateway call left [.issued code deviceId]
  | pairs {code deviceSecret token entry left} : call.call = .pair code deviceSecret token →
      gateway.codes.get code = some entry → entry.used = false →
      left.codes = gateway.codes.set code { entry with used := true } →
      Mints settings call.second token entry.deviceId gateway left →
      left.nonces = gateway.nonces →
      Performed settings gateway call left [.paired code entry.deviceId token]
  | refreshes {token fresh session left} : call.call = .refresh token fresh →
      gateway.Live call.first token session → left.codes = gateway.codes →
      Mints settings call.second fresh session.deviceId gateway left →
      left.nonces = gateway.nonces →
      Performed settings gateway call left [.refreshed session.deviceId fresh]
  | revokes {deviceId} : call.call = .revokeDevice deviceId →
      Performed settings gateway call (gateway.revokeDevice deviceId) [.revoked deviceId]
  | checks {token scope nonce session} : call.call = .check token scope nonce →
      gateway.Admits settings call.first call.second token scope nonce session →
      Performed settings gateway call (gateway.remember settings call.second nonce)
        [.checked token session.deviceId scope nonce call.second]
  | drops {left} : gateway.Drops settings call.second left →
      Performed settings gateway call left []

/-- The gateway, the tokens that were drawn, the last reading of the clock, and what has
succeeded. -/
structure GatewayHistory where
  gateway : EcosystemGateway := {}
  drawn : List String := []
  clock : Int
  events : List GatewayEvent := []

namespace GatewayHistory

/-- A call leaves a gateway and tells what has succeeded. -/
def after (history : GatewayHistory) (call : ClockedCall) (gateway : EcosystemGateway)
    (events : List GatewayEvent) : GatewayHistory where
  gateway := gateway
  drawn := call.call.draw.toList ++ history.drawn
  clock := call.second
  events := history.events ++ events

/-- The events of an answer: none, where the call has raised. -/
def told {answer : Type} (given : Except Error answer) (event : answer → GatewayEvent) :
    List GatewayEvent :=
  match given with
  | .ok value => [event value]
  | .error _ => []

def start (clock : Int) : GatewayHistory where
  clock := clock

/-- The call that a step makes. -/
def perform (settings : GatewaySettings) (history : GatewayHistory) (call : ClockedCall) :
    GatewayHistory :=
  let gateway := history.gateway
  match call.call with
  | .issuePairingCode deviceId role code =>
      let (given, left) :=
        gateway.issuePairingCode settings call.first call.second code deviceId role
      history.after call left (told given fun code => .issued code deviceId)
  | .pair code deviceSecret token =>
      let (given, left) := gateway.pair settings call.first call.second code deviceSecret token
      history.after call left (told given fun token =>
        .paired code (((gateway.codes.get code).map PairingEntry.deviceId).getD "") token)
  | .refresh token fresh =>
      let (given, left) := gateway.refresh settings call.first call.second token fresh
      history.after call left (told given fun fresh =>
        .refreshed (((gateway.sessions.get token).map DeviceSession.deviceId).getD "") fresh)
  | .revokeToken token => history.after call (gateway.revokeToken token).2 []
  | .revokeDevice deviceId =>
      history.after call (gateway.revokeDevice deviceId) [.revoked deviceId]
  | .check token scope nonce =>
      let (given, left) := gateway.check settings call.first call.second token scope nonce
      history.after call left (told given fun session =>
        .checked token session.deviceId scope nonce call.second)

/-- One call. The tokens are those of `token_hex`, which draws none twice. -/
def step (settings : GatewaySettings) : StepFunction GatewayHistory ClockedCall :=
  fun history call =>
    if call.call.draw.any history.drawn.contains then none
    else some (history.perform settings call)

/-! ## What a call does -/

theorem mints_mint {settings : GatewaySettings} {now : Int} {token deviceId role : String}
    {gateway left : EcosystemGateway}
    (sessions : ∀ other session, left.sessions.get other = some session →
      gateway.sessions.get other = some session) :
    Mints settings now token deviceId gateway (left.mint settings now token deviceId role) := by
  intro other session found
  simp only [EcosystemGateway.mint, Dict.get_set] at found
  split at found
  · next same =>
      cases found
      exact .inl ⟨same, rfl, rfl⟩
  · next differs => exact .inr ⟨differs, sessions other session found⟩

theorem perform_sound (settings : GatewaySettings) (history : GatewayHistory)
    (call : ClockedCall) :
    ∃ left events, history.perform settings call = history.after call left events ∧
      Performed settings history.gateway call left events := by
  rcases isCall : call with ⟨made, first, second⟩
  cases made with
  | issuePairingCode deviceId role code =>
      unfold perform
      simp only [EcosystemGateway.issuePairingCode]
      by_cases known : role = "phone" ∨ role = "hardware"
      · rw [if_pos known]
        refine ⟨_, _, rfl, .issues rfl ?_ ?_ rfl⟩
        · intro other entry found
          simp only [Dict.get_set] at found
          split at found
          · next same =>
              cases found
              exact .inl ⟨same, rfl⟩
          · next differs =>
              exact .inr ⟨differs, (Dict.get_filter_eq_some.mp found).1⟩
        · exact fun _ _ found => (Dict.get_filter_eq_some.mp found).1
      · rw [if_neg known]
        exact ⟨_, _, rfl, .drops (.refl _)⟩
  | pair code deviceSecret token =>
      unfold perform
      simp only [EcosystemGateway.pair]
      cases found : history.gateway.codes.get code with
      | none => exact ⟨_, _, rfl, .drops (.refl _)⟩
      | some entry =>
          by_cases used : entry.used = true
          · simp only [used, if_true]
            exact ⟨_, _, rfl, .drops (.refl _)⟩
          · by_cases expired : entry.expires < first
            · simp only [used, expired, if_true]
              exact ⟨_, _, rfl, .drops (.refl _)⟩
            · by_cases strong : EcosystemGateway.strongSecret deviceSecret = true
              · simp only [used, expired, strong, Bool.not_true, if_false, Bool.false_eq_true]
                exact ⟨_, _, rfl, .pairs rfl found (Bool.not_eq_true _ ▸ used) rfl
                  (mints_mint fun _ _ found => found) rfl⟩
              · simp only [used, expired, strong, Bool.not_false, if_true]
                exact ⟨_, _, rfl, .drops (.refl _)⟩
  | refresh token fresh =>
      unfold perform
      simp only [EcosystemGateway.refresh]
      rcases EcosystemGateway.liveSession_cases history.gateway first token with
        ⟨session, live, answered⟩ | ⟨error, left, answered, drops⟩
      · simp only [answered, told, live.known]
        refine ⟨_, _, rfl, .refreshes rfl live rfl (mints_mint ?_) rfl⟩
        exact fun _ _ found => (Dict.get_erase_eq_some.mp found).1
      · simp only [answered, told]
        exact ⟨_, _, rfl, .drops (drops settings second)⟩
  | revokeToken token =>
      refine ⟨_, _, rfl, .drops ⟨rfl, ?_, .inl rfl⟩⟩
      exact fun _ _ found => (Dict.get_erase_eq_some.mp found).1
  | revokeDevice deviceId => exact ⟨_, _, rfl, .revokes rfl⟩
  | check token scope nonce =>
      unfold perform
      rcases EcosystemGateway.check_cases settings history.gateway first second token scope
        nonce with ⟨session, admits⟩ | ⟨error, left, answered, drops⟩
      · simp only [EcosystemGateway.check_of_admits admits, told]
        exact ⟨_, _, rfl, .checks rfl admits⟩
      · simp only [answered, told]
        exact ⟨_, _, rfl, .drops drops⟩

/-- A step is a call that draws a new token, or none. -/
theorem step_eq_some {settings : GatewaySettings} {history next : GatewayHistory}
    {call : ClockedCall} :
    step settings history call = some next ↔
      (∀ token ∈ call.call.draw, token ∉ history.drawn) ∧
        history.perform settings call = next := by
  unfold step
  split
  · next drawn =>
      constructor
      · intro stepped
        cases stepped
      · rintro ⟨fresh, _⟩
        rcases (Option.any_eq_true _ _).mp drawn with ⟨token, drawn, held⟩
        exact absurd (List.contains_iff_mem.mp held) (fresh token drawn)
  · next fresh =>
      simp only [Option.any_eq_true, List.contains_iff_mem, not_exists, not_and] at fresh
      simp only [Option.some.injEq, iff_and_self]
      exact fun _ => fresh

end GatewayHistory

end Raphael.Interface
