import Raphael.Core.Payload
import Raphael.Foundation.Dict

/-! # Synchronization of metadata

What a sync run decides about one object, and what it does at the remote side. The
remote side is the in-memory transport: it stores objects under their ids and
acknowledges a push with the version of the object. -/

namespace Raphael.Cloud

open Core Foundation

inductive SyncClass
  | localOnly
  | syncAllowed
  | syncRestricted
  | syncForbidden
  deriving DecidableEq, Repr

def SyncClass.value : SyncClass → String
  | .localOnly => "LOCAL_ONLY"
  | .syncAllowed => "SYNC_ALLOWED"
  | .syncRestricted => "SYNC_RESTRICTED"
  | .syncForbidden => "SYNC_FORBIDDEN"

inductive SyncState
  | inSync
  | uploaded
  | downloaded
  | skipped
  | conflict
  | failed
  | busy
  | completed
  deriving DecidableEq, Repr

structure SyncObject where
  objectId : String
  objectType : String := ""
  version : String
  contentHash : String
  payload : List (String × Payload) := []
  deriving Repr

/-- `contains_secrets`, which enters dicts and lists. -/
def containsSecrets (payload : Payload) : Bool := payload.scan (· = .list)

/-- What a listing tells about an object. -/
abbrev Version := String × String

def SyncObject.listing (object : SyncObject) : Version :=
  (object.version, object.contentHash)

structure SyncResult where
  objectId : String
  objectType : String
  state : SyncState
  detail : String
  deriving DecidableEq, Repr

structure SyncReport where
  state : SyncState
  results : List SyncResult
  error : String := ""
  deriving DecidableEq, Repr

/-- `_DEFAULT_CLASS`. -/
def defaultClass : Dict String SyncClass where
  entries :=
    [("task", .syncAllowed), ("agent", .syncAllowed), ("workspace", .syncAllowed),
      ("skill", .syncAllowed), ("model", .syncAllowed), ("job", .syncAllowed),
      ("memory", .syncRestricted), ("event", .syncAllowed)]
  distinct := by decide

structure SyncPolicy where
  defaults : Dict String SyncClass := defaultClass
  overrides : Dict String SyncClass := Dict.empty
  allowRestrictedDownload : Bool := false

namespace SyncPolicy

/-- Secrets force SYNC_FORBIDDEN. -/
def classify (policy : SyncPolicy) (object : SyncObject) : SyncClass :=
  if containsSecrets (.fields object.payload) then .syncForbidden
  else
    match policy.overrides.get object.objectId with
    | some override => override
    | none => (policy.defaults.get object.objectType).getD .localOnly

def canUpload (policy : SyncPolicy) (object : SyncObject) : Bool :=
  policy.classify object ∈ [SyncClass.syncAllowed, .syncRestricted]

def canDownload (policy : SyncPolicy) (syncClass : SyncClass) : Bool :=
  syncClass = .syncAllowed ||
    (syncClass = .syncRestricted && policy.allowRestrictedDownload)

end SyncPolicy

/-- What a transport call raises: a ConnectionError or an OSError, or something
else. -/
inductive TransportError
  | network (text : String)
  | other (text : String)
  deriving DecidableEq, Repr

/-- The objects of the remote side under their ids. -/
abbrev Remote := Dict String SyncObject

/-- The result of `list_versions`. -/
abbrev Listing := Dict String Version

def Remote.listVersions (remote : Remote) : Listing := remote.map SyncObject.listing

def Remote.push (remote : Remote) (object : SyncObject) : Remote :=
  remote.set object.objectId object

structure SyncManager where
  policy : SyncPolicy := {}
  /-- The version of each object id that was acknowledged last. -/
  acknowledged : Dict String String := Dict.empty

/-- What `_sync_one` does with an object. -/
inductive Decision
  | skip (detail : String)
  | push (detail : String)
  | agree
  | conflict (detail : String)
  deriving DecidableEq, Repr

namespace SyncManager

def acknowledge (manager : SyncManager) (objectId version : String) : SyncManager :=
  { manager with acknowledged := manager.acknowledged.set objectId version }

/-- The comparisons of `_sync_one`. -/
def decision (manager : SyncManager) (object : SyncObject) (listing : Listing) : Decision :=
  let syncClass := manager.policy.classify object
  if syncClass ∈ [SyncClass.localOnly, .syncForbidden] then
    .skip s!"policy {syncClass.value}"
  else if !manager.policy.canUpload object then .skip "upload not permitted"
  else
    match listing.get object.objectId with
    | none => .push "new remote object"
    | some (remoteVersion, remoteHash) =>
        if remoteVersion = object.version ∧ remoteHash = object.contentHash then .agree
        else if manager.acknowledged.get object.objectId = some remoteVersion then
          -- The hash of what was acknowledged is not known here.
          .push "local newer"
        else .conflict s!"local v{object.version} vs remote v{remoteVersion}"

/-- An object that the policy holds back is passed over. -/
theorem decision_of_held {manager : SyncManager} {object : SyncObject}
    (held : manager.policy.canUpload object = false) (listing : Listing) :
    ∃ detail, manager.decision object listing = .skip detail := by
  unfold decision
  dsimp only
  split
  · exact ⟨_, rfl⟩
  · exact ⟨"upload not permitted", by simp [held]⟩

/-- The comparisons for an object that may be uploaded. -/
theorem decision_of_uploadable {manager : SyncManager} {object : SyncObject}
    (uploadable : manager.policy.canUpload object = true) (listing : Listing) :
    manager.decision object listing =
      match listing.get object.objectId with
      | none => .push "new remote object"
      | some version =>
          if version = object.listing then .agree
          else if manager.acknowledged.get object.objectId = some version.1 then
            .push "local newer"
          else .conflict s!"local v{object.version} vs remote v{version.1}" := by
  have shared : manager.policy.classify object ∉ [SyncClass.localOnly, .syncForbidden] := by
    unfold SyncPolicy.canUpload at uploadable
    cases classified : manager.policy.classify object <;> simp_all
  unfold decision
  simp only [shared, uploadable, if_false, Bool.not_true, Bool.false_eq_true]
  cases listing.get object.objectId with
  | none => rfl
  | some version => simp only [SyncObject.listing, Prod.ext_iff]

/-- An object is found in agreement only with its own listing. -/
theorem listed_of_agree {manager : SyncManager} {object : SyncObject} {listing : Listing}
    (agrees : manager.decision object listing = .agree) :
    manager.policy.canUpload object = true ∧
      listing.get object.objectId = some object.listing := by
  cases uploadable : manager.policy.canUpload object with
  | false =>
      rcases decision_of_held uploadable listing with ⟨detail, skipped⟩
      rw [skipped] at agrees
      cases agrees
  | true =>
      rw [decision_of_uploadable uploadable] at agrees
      split at agrees
      · cases agrees
      · next version listed =>
          split at agrees
          · next same => exact ⟨rfl, same ▸ listed⟩
          · split at agrees <;> cases agrees

/-- An object is pushed when its id is not listed, or listed with the version that was
acknowledged last. -/
theorem listed_of_push {manager : SyncManager} {object : SyncObject} {listing : Listing}
    {detail : String} (pushes : manager.decision object listing = .push detail) :
    manager.policy.canUpload object = true ∧ ∀ version,
      listing.get object.objectId = some version → version ≠ object.listing ∧
        manager.acknowledged.get object.objectId = some version.1 := by
  cases uploadable : manager.policy.canUpload object with
  | false =>
      rcases decision_of_held uploadable listing with ⟨detail, skipped⟩
      rw [skipped] at pushes
      cases pushes
  | true =>
      refine ⟨rfl, fun version listed => ?_⟩
      rw [decision_of_uploadable uploadable, listed] at pushes
      dsimp only at pushes
      split at pushes
      · cases pushes
      · next differs =>
          split at pushes
          · next acknowledged => exact ⟨differs, acknowledged⟩
          · cases pushes

/-- The decision goes by the policy, and by what is acknowledged and listed under the
id. -/
theorem decision_congr {manager other : SyncManager} {object : SyncObject}
    {listing versions : Listing} (policy : manager.policy = other.policy)
    (acknowledged : manager.acknowledged.get object.objectId =
      other.acknowledged.get object.objectId)
    (listed : listing.get object.objectId = versions.get object.objectId) :
    manager.decision object listing = other.decision object versions := by
  unfold decision
  rw [policy, acknowledged, listed]

/-- An object that may be uploaded and is listed as it is itself is found in
agreement. -/
theorem agree_of_listed {manager : SyncManager} {object : SyncObject} {listing : Listing}
    (uploadable : manager.policy.canUpload object = true)
    (listed : listing.get object.objectId = some object.listing) :
    manager.decision object listing = .agree := by
  rw [decision_of_uploadable uploadable, listed]
  exact if_pos rfl

/-- The manager and the remote side after an object, and what became of it. -/
structure Outcome where
  manager : SyncManager
  remote : Remote
  result : Except TransportError SyncResult

/-- `_record`. -/
def record (object : SyncObject) (state : SyncState) (detail : String) : SyncResult :=
  { objectId := object.objectId, objectType := object.objectType, state, detail }

/-- `_push`; a failure of the transport is given. -/
def push (manager : SyncManager) (remote : Remote) (object : SyncObject) (detail : String)
    (failure : Option TransportError) : Outcome :=
  match failure with
  | some (.network text) =>
      ⟨manager, remote, .ok (record object .failed s!"upload failed: {text}")⟩
  | some (.other text) => ⟨manager, remote, .error (.other text)⟩
  | none =>
      ⟨manager.acknowledge object.objectId object.version, remote.push object,
        .ok (record object .uploaded detail)⟩

/-- `_sync_one`. -/
def syncOne (manager : SyncManager) (remote : Remote) (object : SyncObject)
    (listing : Listing) (failure : Option TransportError) : Outcome :=
  match manager.decision object listing with
  | .skip detail => ⟨manager, remote, .ok (record object .skipped detail)⟩
  | .push detail => manager.push remote object detail failure
  | .agree =>
      ⟨manager.acknowledge object.objectId object.version, remote,
        .ok (record object .inSync "versions match")⟩
  | .conflict detail => ⟨manager, remote, .ok (record object .conflict detail)⟩

/-- `_pull_new` passes over objects that are local, or acknowledged as listed. -/
def passesOver (manager : SyncManager) (localIds : List String) (objectId version : String) :
    Bool :=
  objectId ∈ localIds || manager.acknowledged.get objectId = some version

/-- `_pull_new` with an object that it has pulled. -/
def pulled (manager : SyncManager) (objectId version : String) (remote : SyncObject) :
    SyncManager × SyncResult :=
  if manager.policy.canDownload (manager.policy.classify remote) then
    (manager.acknowledge objectId version,
      { objectId, objectType := remote.objectType, state := .downloaded,
        detail := "new remote object" })
  else
    (manager, { objectId, objectType := remote.objectType, state := .skipped,
                detail := "download not permitted" })

end SyncManager

/-- The report over the results of a run. -/
def SyncReport.of (results : List SyncResult) : SyncReport where
  state :=
    if results.any (·.state = .failed) &&
        !results.any (·.state ∈ [SyncState.uploaded, .downloaded, .inSync]) then .failed
    else .completed
  results := results

/-- `_failed`. -/
def SyncReport.failed (objects : List SyncObject) (error : String) : SyncReport where
  state := .failed
  results := objects.map fun object => SyncManager.record object .failed error
  error := error

end Raphael.Cloud
