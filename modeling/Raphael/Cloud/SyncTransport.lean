import Raphael.Cloud.SyncRuns
import Raphael.Foundation.Effect

/-! # A manager over any transport

The calls of one manager, where a transport is any world behind `list_versions`, `push`
and `pull`. A call may raise, and the world may have changed all the same. What was
exchanged is recorded beside what the manager acknowledges. -/

namespace Raphael.Cloud

open Core Foundation

structure SyncTransport (World : Type) where
  listVersions : EStateM TransportError World Listing
  /-- Answers the acknowledged version. -/
  push (object : SyncObject) : EStateM TransportError World String
  pull (objectId : String) : EStateM TransportError World (Option SyncObject)

/-- A call of the transport with its answer, or an object that was found in agreement with
the listing. -/
inductive Exchange
  | listed (answer : Except TransportError Listing)
  | pushed (object : SyncObject) (answer : Except TransportError String)
  | matched (object : SyncObject)
  /-- A run pulls what was listed with a version. -/
  | pulled (objectId : String) (listed : Option String)
      (answer : Except TransportError (Option SyncObject))

/-- The id and the version that the manager has pushed, matched or downloaded. -/
def Exchange.handshake (policy : SyncPolicy) : Exchange → Option (String × String)
  | .pushed object (.ok version) => some (object.objectId, version)
  | .matched object => some (object.objectId, object.version)
  | .pulled objectId _ (.ok (some remote)) =>
      if policy.canDownload (policy.classify remote) then some (objectId, remote.version)
      else none
  | _ => none

structure Session (World : Type) where
  manager : SyncManager
  world : World
  /-- What the present call of the manager has exchanged. -/
  exchanges : List Exchange := []
  /-- What all its calls have pushed, matched or downloaded. -/
  handshakes : List (String × String) := []

/-- What escapes from a call of the manager. -/
inductive SyncFailure
  | transport (error : TransportError)
  | domainValidation (message : String)
  deriving DecidableEq, Repr

abbrev SyncM (World : Type) := EStateM SyncFailure (Session World)

namespace Session

variable {World : Type}

def note (session : Session World) (exchange : Exchange) : Session World :=
  { session with
    exchanges := session.exchanges ++ [exchange]
    handshakes :=
      session.handshakes ++ (exchange.handshake session.manager.policy).toList }

@[simp] theorem note_manager (session : Session World) (exchange : Exchange) :
    (session.note exchange).manager = session.manager := rfl

@[simp] theorem note_exchanges (session : Session World) (exchange : Exchange) :
    (session.note exchange).exchanges = session.exchanges ++ [exchange] := rfl

/-- The session after an exchange, and after what is acknowledged for it. -/
def shake (session : Session World) (world : World) (exchange : Exchange)
    (objectId version : String) : Session World :=
  { ({ session with world }.note exchange) with
    manager := session.manager.acknowledge objectId version }

/-- A call of the transport, whose exceptions are caught. -/
def ask {Answer : Type} (effect : EStateM TransportError World Answer)
    (exchange : Except TransportError Answer → Exchange) :
    SyncM World (Except TransportError Answer) := fun session =>
  match effect session.world with
  | .ok answer world => .ok (.ok answer) ({ session with world }.note (exchange (.ok answer)))
  | .error error world =>
      .ok (.error error) ({ session with world }.note (exchange (.error error)))

def acknowledge (objectId version : String) : SyncM World Unit :=
  modify fun session =>
    { session with manager := session.manager.acknowledge objectId version }

end Session

namespace SyncTransport

variable {World : Type} (transport : SyncTransport World)

/-- `_push`. -/
def pushObject (object : SyncObject) (detail : String) : SyncM World SyncResult := do
  match ← Session.ask (transport.push object) (.pushed object) with
  | .ok version =>
      Session.acknowledge object.objectId version
      return SyncManager.record object .uploaded detail
  | .error (.network text) =>
      return SyncManager.record object .failed s!"upload failed: {text}"
  | .error (.other text) => throw (.transport (.other text))

/-- `_sync_one`. -/
def syncOne (listing : Listing) (object : SyncObject) : SyncM World SyncResult := do
  match (← get).manager.decision object listing with
  | .skip detail => return SyncManager.record object .skipped detail
  | .push detail => transport.pushObject object detail
  | .agree =>
      modify (·.note (.matched object))
      Session.acknowledge object.objectId object.version
      return SyncManager.record object .inSync "versions match"
  | .conflict detail => return SyncManager.record object .conflict detail

/-- One entry of the listing in `_pull_new`. -/
def pullOne (localIds : List String) (entry : String × Version) :
    SyncM World (Option SyncResult) := do
  let manager := (← get).manager
  if manager.passesOver localIds entry.1 entry.2.1 then return none
  match ← Session.ask (transport.pull entry.1) (.pulled entry.1 (some entry.2.1)) with
  | .error error => throw (.transport error)
  | .ok none => return none
  | .ok (some remote) =>
      if manager.policy.canDownload (manager.policy.classify remote) then
        -- The version is the listed one, not the one of the object.
        Session.acknowledge entry.1 entry.2.1
        return some { objectId := entry.1, objectType := remote.objectType,
                      state := .downloaded, detail := "new remote object" }
      else
        return some { objectId := entry.1, objectType := remote.objectType,
                      state := .skipped, detail := "download not permitted" }

/-- `_pull_new`. -/
def pullNew (objects : List SyncObject) (listing : Listing) :
    SyncM World (List SyncResult) := do
  let results ← (Syncing.sorted listing).mapM
    (transport.pullOne (objects.map SyncObject.objectId))
  return results.reduceOption

/-- `_run`. -/
def sync (objects : List SyncObject) : SyncM World SyncReport := do
  match ← Session.ask transport.listVersions .listed with
  | .error (.network text) =>
      return SyncReport.failed objects s!"remote unreachable: {text}"
  | .error (.other text) => throw (.transport (.other text))
  | .ok listing =>
      let handled ← objects.mapM (transport.syncOne listing)
      let fetched ← transport.pullNew objects listing
      return .of (handled ++ fetched)

/-- The result of `resolve` for a local object. -/
def resolved (object : SyncObject) (objectId : String) (state : SyncState)
    (detail : String) : SyncResult where
  objectId := objectId
  objectType := object.objectType
  state := state
  detail := detail

/-- `resolve` in favour of the local object. -/
def keepLocal (objectId : String) (object : SyncObject) : SyncM World SyncResult := do
  let policy := (← get).manager.policy
  if !policy.canUpload object then
    return resolved object objectId .skipped
      s!"policy {(policy.classify object).value}: upload not permitted"
  match ← Session.ask (transport.push object) (.pushed object) with
  | .ok version =>
      Session.acknowledge objectId version
      return resolved object objectId .uploaded "conflict kept local"
  | .error (.network text) => return resolved object objectId .failed text
  | .error (.other text) => throw (.transport (.other text))

/-- `resolve` in favour of the remote object. -/
def keepRemote (objectId : String) (object : SyncObject) : SyncM World SyncResult := do
  match ← Session.ask (transport.pull objectId) (.pulled objectId none) with
  | .error error => throw (.transport error)
  | .ok none => return resolved object objectId .failed "remote object vanished"
  | .ok (some remote) =>
      let policy := (← get).manager.policy
      if policy.canDownload (policy.classify remote) then
        Session.acknowledge objectId remote.version
        return resolved object objectId .downloaded "conflict kept remote"
      else
        return resolved object objectId .skipped "download not permitted by policy"

def resolve (objectId keep : String) (objects : List SyncObject) :
    SyncM World SyncResult :=
  if keep ∉ ["local", "remote"] then
    throw (.domainValidation "keep must be 'local' or 'remote'")
  else
    match objects.find? (·.objectId = objectId) with
    | none => throw (.domainValidation s!"unknown object {Text.repr objectId}")
    | some object => do
        match ← Session.ask transport.listVersions .listed with
        | .error (.network text) => return resolved object objectId .failed text
        | .error (.other text) => throw (.transport (.other text))
        | .ok _ =>
            if keep = "local" then transport.keepLocal objectId object
            else transport.keepRemote objectId object

end SyncTransport

inductive SyncCall
  | sync (objects : List SyncObject)
  | resolve (objectId keep : String) (objects : List SyncObject)
  deriving Repr

inductive SyncReply
  | report (report : SyncReport)
  | result (result : SyncResult)
  deriving DecidableEq, Repr

namespace SyncTransport

variable {World : Type} (transport : SyncTransport World)

def perform : SyncCall → SyncM World SyncReply
  | .sync objects => return .report (← transport.sync objects)
  | .resolve objectId keep objects =>
      return .result (← transport.resolve objectId keep objects)

/-- A call of the manager, which returns or raises. -/
def serve (session : Session World) (call : SyncCall) :
    EStateM.Result SyncFailure (Session World) SyncReply :=
  transport.perform call { session with exchanges := [] }

/-- The session behind a call of the manager. -/
def behind (session : Session World) (call : SyncCall) : Session World :=
  leaves (transport.perform call) { session with exchanges := [] }

/-- The session behind some calls, one after the other. -/
def after (session : Session World) (calls : List SyncCall) : Session World :=
  calls.foldl transport.behind session

variable {transport}

theorem behind_sync (session : Session World) (objects : List SyncObject) :
    transport.behind session (.sync objects) =
      leaves (transport.sync objects) { session with exchanges := [] } := by
  unfold behind leaves
  simp only [perform, bind_apply]
  cases transport.sync objects { session with exchanges := [] } <;> rfl

theorem serve_sync_of_ok {session after : Session World} {objects : List SyncObject}
    {report : SyncReport}
    (returns : transport.sync objects { session with exchanges := [] } = .ok report after) :
    transport.serve session (.sync objects) = .ok (.report report) after := by
  unfold serve
  simp only [perform, bind_apply, returns]
  rfl

/-! `_sync_one` by what is decided for the object. -/

section

variable {session : Session World} {listing : Listing} {object : SyncObject}
  {detail : String}

theorem syncOne_of_skip (decided : session.manager.decision object listing = .skip detail) :
    transport.syncOne listing object session =
      .ok (SyncManager.record object .skipped detail) session := by
  unfold syncOne
  rw [get_bind_apply, decided]
  rfl

theorem syncOne_of_push (decided : session.manager.decision object listing = .push detail) :
    transport.syncOne listing object session =
      transport.pushObject object detail session := by
  unfold syncOne
  rw [get_bind_apply, decided]

theorem syncOne_of_agree (decided : session.manager.decision object listing = .agree) :
    transport.syncOne listing object session =
      .ok (SyncManager.record object .inSync "versions match")
        (session.shake session.world (.matched object) object.objectId object.version) := by
  unfold syncOne
  rw [get_bind_apply, decided]
  rfl

theorem syncOne_of_conflict
    (decided : session.manager.decision object listing = .conflict detail) :
    transport.syncOne listing object session =
      .ok (SyncManager.record object .conflict detail) session := by
  unfold syncOne
  rw [get_bind_apply, decided]
  rfl

end

end SyncTransport

end Raphael.Cloud
