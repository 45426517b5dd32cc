import Raphael.Foundation.StepSystem
import Raphael.Persistence.SnapshotTable

/-! # Availability of devices

The presence rows, the edits that the calls make to a row, and the calls in flight: every
repository call is one step. Times are microseconds. -/

namespace Raphael.Cloud

open Core Foundation Persistence

inductive PCStatus
  | online
  | offline
  | sleeping
  | unreachable
  | busy
  | available
  deriving DecidableEq, Repr

structure DevicePresence where
  id : String
  updatedAt : Int := 0
  deviceId : String := ""
  lastSeen : Int := 0
  status : PCStatus := .offline
  capabilities : List String := []
  resourcePressure : String := "UNKNOWN"
  networkReachable : Bool := false
  agentRuntime : String := "unknown"
  deriving DecidableEq, Repr

instance : Entity DevicePresence where
  id := DevicePresence.id
  updatedAt := DevicePresence.updatedAt
  touch now presence := { presence with updatedAt := now }
  id_touch _ _ := rfl

@[simp] theorem DevicePresence.entity_id (presence : DevicePresence) :
    Entity.id presence = presence.id := rfl

/-! ## What a heartbeat reports -/

structure Heartbeat where
  deviceId : String
  status : PCStatus := .online
  capabilities : Option (List String) := none
  pressure : String := "UNKNOWN"
  reachable : Bool := true
  runtime : String := "unknown"
  deriving DecidableEq, Repr

def knownPressures : List String := ["LOW", "MODERATE", "HIGH", "CRITICAL", "UNKNOWN"]

def maxCapabilities : Nat := 100

def maxCapabilityChars : Nat := 256

/-- `_check_heartbeat`. -/
def checkHeartbeat (beat : Heartbeat) : Except Error (List String) :=
  if beat.deviceId = "" then .error (.domainValidation "device_id must not be empty")
  else if beat.deviceId.length > 256 then .error (.domainValidation "device_id too long")
  else
    let caps := beat.capabilities.getD []
    if caps.length > maxCapabilities then .error (.domainValidation "too many capabilities")
    else if caps.any fun capability => capability.length > maxCapabilityChars then
      .error (.domainValidation "capability entries must be short strings")
    else if beat.pressure ∉ knownPressures then
      .error (.domainValidation ("unknown pressure " ++ Text.repr beat.pressure))
    else if beat.runtime.length > 256 then
      .error (.domainValidation "runtime identifier too long")
    else .ok caps

/-- The first row of a device. -/
def Heartbeat.presence (beat : Heartbeat) (id : String) (caps : List String) (moment : Int) :
    DevicePresence where
  id := id
  deviceId := beat.deviceId
  lastSeen := moment
  status := beat.status
  capabilities := caps
  resourcePressure := beat.pressure
  networkReachable := beat.reachable
  agentRuntime := beat.runtime

/-- The row of a device after the edit of a later heartbeat. -/
def Heartbeat.refresh (beat : Heartbeat) (caps : List String) (moment : Int)
    (existing : DevicePresence) : DevicePresence :=
  { existing with
    lastSeen := moment
    status := beat.status
    capabilities := if beat.capabilities.isSome then caps else existing.capabilities
    resourcePressure := beat.pressure
    networkReachable := beat.reachable
    agentRuntime := beat.runtime }

/-- What an operator changes. -/
inductive OperatorChange
  | setStatus (status : PCStatus)
  | markOffline
  deriving DecidableEq, Repr

def OperatorChange.edit : OperatorChange → DevicePresence → DevicePresence
  | .setStatus status, presence => { presence with status }
  | .markOffline, presence => { presence with status := .offline, networkReachable := false }

/-- The service, with its lease in microseconds. -/
structure PCAvailabilityService where
  leaseTimeout : Int := 60000000
  positive : 0 < leaseTimeout := by decide

/-- `_expired`. -/
def PCAvailabilityService.expired (service : PCAvailabilityService) (presence : DevicePresence)
    (now : Int) : Bool := now - presence.lastSeen > service.leaseTimeout

/-- The rows that `poll` writes, as it writes them. -/
def PCAvailabilityService.due (service : PCAvailabilityService) (listed : List DevicePresence)
    (moment : Int) : List DevicePresence :=
  (listed.filter fun presence => presence.status ≠ .offline ∧ service.expired presence moment).map
    fun presence => { presence with status := .offline }

/-- `_find`. -/
def findPresence (table : SnapshotTable DevicePresence) (deviceId : String) :
    Option DevicePresence :=
  table.list.find? (DevicePresence.deviceId · == deviceId)

/-! ## Calls in flight -/

inductive PresenceEvent
  | pcOnline
  | pcOffline
  | pcExpired
  deriving DecidableEq, Repr

inductive PresenceAnswer
  | presence (row : DevicePresence)
  | expired (rows : List DevicePresence)
  | raised (error : Error)
  deriving DecidableEq, Repr

/-- What a call does next. -/
inductive PresencePhase
  /-- A heartbeat looks for the row of its device. -/
  | finding (beat : Heartbeat) (caps : List String) (moment : Int)
  | creating (presence : DevicePresence)
  /-- A heartbeat writes the row back that it has edited; `previous` is its status before. -/
  | refreshing (presence : DevicePresence) (previous : PCStatus)
  /-- An operator's change looks for the row of its device. -/
  | requiring (deviceId : String) (change : OperatorChange)
  | editing (presence : DevicePresence) (change : OperatorChange)
  /-- `poll` lists the rows. -/
  | listing (moment : Int)
  /-- `poll` writes the rows back that it has found expired, one after the other. -/
  | expiring (rest expired : List DevicePresence)
  deriving DecidableEq, Repr

inductive PresenceAction (Call : Type u)
  | heartbeat (call : Call) (beat : Heartbeat)
  | change (call : Call) (deviceId : String) (change : OperatorChange)
  | poll (call : Call)
  /-- The next repository call; `id` is drawn for a row that is made after it. -/
  | advance (call : Call) (id : String)
  | tick (clock : Int)

/-- The rows, the clock, what every call does next, and what has been answered and emitted. -/
structure Presences (Call : Type u) where
  table : SnapshotTable DevicePresence
  clock : Int
  phase : Call → Option PresencePhase := fun _ => none
  /-- The greatest moment of the heartbeats of a device that have returned since the last change
  of an operator. -/
  promised : String → Option Int := fun _ => none
  answers : List (Call × PresenceAnswer) := []
  events : List (PresenceEvent × String) := []

namespace Presences

variable {Call : Type u}

/-- The event is published if it is due. -/
def emit (state : Presences Call) (event : PresenceEvent) (deviceId : String)
    (due : Bool := true) : Presences Call :=
  { state with events := if due then state.events ++ [(event, deviceId)] else state.events }

/-- A heartbeat of the device has returned. -/
def promise (state : Presences Call) (deviceId : String) (moment : Int) : Presences Call :=
  { state with
    promised := Function.update state.promised deviceId
      (some (((state.promised deviceId).map (max · moment)).getD moment)) }

theorem promised_promise (state : Presences Call) (deviceId other : String) (moment : Int) :
    (state.promise deviceId moment).promised other =
      if other = deviceId then some (((state.promised deviceId).map (max · moment)).getD moment)
      else state.promised other := by
  by_cases same : other = deviceId
  · subst same
    simp [promise]
  · simp [promise, same]

def release (state : Presences Call) (deviceId : String) : Presences Call :=
  { state with promised := Function.update state.promised deviceId none }

theorem promised_release (state : Presences Call) (deviceId other : String) :
    (state.release deviceId).promised other =
      if other = deviceId then none else state.promised other := by
  by_cases same : other = deviceId
  · subst same
    simp [release]
  · simp [release, same]

def write (state : Presences Call) (presence : DevicePresence) : Presences Call :=
  { state with table := (state.table.update state.clock presence).1 }

variable [DecidableEq Call]

/-- The call returns or raises. -/
def answer (state : Presences Call) (call : Call) (answer : PresenceAnswer) : Presences Call :=
  { state with
    phase := Function.update state.phase call none
    answers := state.answers ++ [(call, answer)] }

def goOn (state : Presences Call) (call : Call) (phase : PresencePhase) : Presences Call :=
  { state with phase := Function.update state.phase call (some phase) }

/-- The repository call of a phase, and what the call does up to the next one. -/
def advance (service : PCAvailabilityService) (state : Presences Call) (call : Call) (id : String) :
    PresencePhase → Presences Call
  | .finding beat caps moment =>
      match findPresence state.table beat.deviceId with
      | none => state.goOn call (.creating (beat.presence id caps moment))
      | some existing =>
          state.goOn call (.refreshing (beat.refresh caps moment existing) existing.status)
  | .creating presence =>
      match state.table.create state.clock presence with
      | .error error => state.answer call (.raised error)
      | .ok (table, created) =>
          (({ state with table }.emit .pcOnline presence.deviceId).promise presence.deviceId
            presence.lastSeen).answer call (.presence created)
  | .refreshing presence previous =>
      let returned := previous ∈ [.offline, .unreachable] ∧ presence.status ∈ [.online, .available]
      (((state.write presence).emit .pcOnline presence.deviceId returned).promise presence.deviceId
        presence.lastSeen).answer call (.presence (Entity.touch state.clock presence))
  | .requiring deviceId change =>
      match findPresence state.table deviceId with
      | none =>
          state.answer call
            (.raised (.other ("DevicePresence " ++ Text.repr deviceId ++ " not found")))
      | some presence => state.goOn call (.editing (change.edit presence) change)
  | .editing presence change =>
      (((state.write presence).emit .pcOffline presence.deviceId (change = .markOffline)).release
        presence.deviceId).answer call (.presence (Entity.touch state.clock presence))
  | .listing moment =>
      match service.due state.table.list moment with
      | [] => state.answer call (.expired [])
      | rest => state.goOn call (.expiring rest [])
  | .expiring [] expired => state.answer call (.expired expired)
  | .expiring (presence :: rest) expired =>
      let state := (state.write presence).emit .pcExpired presence.deviceId
      let expired := expired ++ [Entity.touch state.clock presence]
      match rest with
      | [] => state.answer call (.expired expired)
      | rest => state.goOn call (.expiring rest expired)

/-- A call begins with its reading of the clock, and the clock does not go back. -/
def step (service : PCAvailabilityService) : StepFunction (Presences Call) (PresenceAction Call) :=
  fun state action =>
    match action with
    | .heartbeat call beat =>
        if state.phase call ≠ none then none
        else
          match checkHeartbeat beat with
          | .error error => some (state.answer call (.raised error))
          | .ok caps => some (state.goOn call (.finding beat caps state.clock))
    | .change call deviceId change =>
        if state.phase call ≠ none then none
        else some (state.goOn call (.requiring deviceId change))
    | .poll call =>
        if state.phase call ≠ none then none
        else some (state.goOn call (.listing state.clock))
    | .advance call id => (state.phase call).map (advance service state call id)
    | .tick clock => if state.clock ≤ clock then some { state with clock } else none

end Presences

end Raphael.Cloud
