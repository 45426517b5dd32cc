import Mathlib.Data.Fintype.Defs
import Raphael.Cloud.Sync
import Raphael.Foundation.StepSystem

/-! # Sync runs over one transport

Managers that sync with one remote side, each one transport call after the other.
Beside what the managers keep, the state records what a claim about the remote side
is about: the hash behind every acknowledged version, who pushed an object last, and
whose listing a push of another manager has made old. -/

namespace Raphael.Cloud

open Foundation

/-- Where a manager stands between two transport calls. -/
inductive SyncPhase
  /-- No run; what the last one returned or raised. -/
  | idle (last : Option (Except TransportError SyncReport))
  | listing (objects : List SyncObject)
  | syncing (objects rest : List SyncObject) (listing : Listing)
      (results : List SyncResult)
  | pulling (localIds : List String) (rest : List (String × Version))
      (results : List SyncResult)

def SyncPhase.isIdle : SyncPhase → Bool
  | .idle _ => true
  | _ => false

/-- The listing that the run goes by. -/
def SyncPhase.listed : SyncPhase → Option Listing
  | .syncing _ _ versions _ => some versions
  | _ => none

/-- The next object of the list, and the listing. -/
def SyncPhase.next : SyncPhase → Option (SyncObject × Listing)
  | .syncing _ (object :: _) versions _ => some (object, versions)
  | _ => none

theorem SyncPhase.listed_of_isIdle {phase : SyncPhase} (idle : phase.isIdle = true) :
    phase.listed = none := by
  cases phase with
  | idle last => rfl
  | _ => cases idle

/-- One `_sync_one`: the entry of the remote side before and after it, and what the
manager knew of it. -/
structure Handling (Device : Type u) where
  device : Device
  object : SyncObject
  uploadable : Bool
  before : Option SyncObject
  owner : Option Device
  known : Option Version
  pulled : List (String × String)
  state : SyncState
  after : Option SyncObject

structure Syncing (Device : Type u) where
  remote : Remote
  manager : Device → SyncManager
  phase : Device → SyncPhase
  /-- The version that a manager acknowledged last for an id, with its hash. -/
  known : Device → String → Option Version
  /-- The versions that a manager has pulled, with their ids. -/
  pulled : Device → List (String × String)
  /-- The manager that pushed the object last. -/
  owner : String → Option Device
  /-- Another manager has pushed the object since this one listed the remote side. -/
  stale : Device → String → Bool
  log : List (Handling Device)

inductive SyncAction (Device : Type u)
  | sync (device : Device) (objects : List SyncObject)
  /-- The next transport call of a run returns, or it raises `failure`. -/
  | advance (device : Device) (failure : Option TransportError)
  /-- Others change the remote side while no run goes on. -/
  | change (remote : Remote)

namespace Syncing

variable {Device : Type u} [DecidableEq Device]

/-- New managers over a remote side. -/
def start (policy : Device → SyncPolicy) (remote : Remote) : Syncing Device where
  remote := remote
  manager device := { policy := policy device }
  phase _ := .idle none
  known _ _ := none
  pulled _ := []
  owner _ := none
  stale _ _ := false
  log := []

def moveTo (state : Syncing Device) (device : Device) (phase : SyncPhase) :
    Syncing Device :=
  { state with phase := Function.update state.phase device phase }

/-- The manager acknowledges what was listed or pushed. -/
def note (state : Syncing Device) (device : Device) (manager : SyncManager)
    (objectId : String) (version : Version) : Syncing Device :=
  { state with
    manager := Function.update state.manager device manager
    known := Function.update state.known device
      (Function.update (state.known device) objectId (some version)) }

/-- The remote side after a push of the manager. -/
def store (state : Syncing Device) (device : Device) (remote : Remote)
    (objectId : String) : Syncing Device :=
  { state with
    remote := remote
    owner := Function.update state.owner objectId (some device)
    stale := fun other id =>
      if id = objectId ∧ other ≠ device then true else state.stale other id }

def handling (state : Syncing Device) (device : Device) (object : SyncObject)
    (result : SyncResult) (remote : Remote) : Handling Device where
  device := device
  object := object
  uploadable := (state.manager device).policy.canUpload object
  before := state.remote.get object.objectId
  owner := state.owner object.objectId
  known := state.known device object.objectId
  pulled := state.pulled device
  state := result.state
  after := remote.get object.objectId

/-- What `_sync_one` has done to an object, in the state. -/
def settle (state : Syncing Device) (device : Device) (object : SyncObject)
    (manager : SyncManager) (remote : Remote) (result : SyncResult) : Syncing Device :=
  let logged :=
    { state with log := state.log ++ [state.handling device object result remote] }
  if result.state = .uploaded then
    (logged.note device manager object.objectId object.listing).store device remote
      object.objectId
  else if result.state = .inSync then
    logged.note device manager object.objectId object.listing
  else logged

/-- The next object of the list. -/
def syncNext (state : Syncing Device) (device : Device) (objects : List SyncObject)
    (object : SyncObject) (rest : List SyncObject) (listing : Listing)
    (results : List SyncResult) (failure : Option TransportError) : Syncing Device :=
  let outcome := (state.manager device).syncOne state.remote object listing failure
  match outcome.result with
  | .ok result =>
      (state.settle device object outcome.manager outcome.remote result).moveTo device
        (.syncing objects rest listing (results ++ [result]))
  | .error raised => state.moveTo device (.idle (some (.error raised)))

/-- The next entry of the listing. -/
def pullNext (state : Syncing Device) (device : Device) (localIds : List String)
    (objectId : String) (version : Version) (rest : List (String × Version))
    (results : List SyncResult) (failure : Option TransportError) : Syncing Device :=
  let manager := state.manager device
  if manager.passesOver localIds objectId version.1 then
    state.moveTo device (.pulling localIds rest results)
  else
    match failure, state.remote.get objectId with
    | some raised, _ => state.moveTo device (.idle (some (.error raised)))
    | none, none => state.moveTo device (.pulling localIds rest results)
    | none, some remote =>
        let (next, result) := manager.pulled objectId version.1 remote
        let seen :=
          { state with
            pulled := Function.update state.pulled device
              (state.pulled device ++ [(objectId, remote.version)]) }
        (if result.state = .downloaded then seen.note device next objectId version
          else seen).moveTo device (.pulling localIds rest (results ++ [result]))

/-- `sorted(remote_versions.items())`. -/
def sorted (listing : Listing) : List (String × Version) :=
  listing.entries.insertionSort fun left right => left.1 ≤ right.1

/-- A run goes on to its next transport call and over it. -/
def advance (state : Syncing Device) (device : Device) (failure : Option TransportError) :
    Option (Syncing Device) :=
  match state.phase device with
  | .idle _ => none
  | .listing objects =>
      match failure with
      | some (.network text) =>
          some (state.moveTo device
            (.idle (some (.ok (.failed objects s!"remote unreachable: {text}")))))
      | some (.other text) => some (state.moveTo device (.idle (some (.error (.other text)))))
      | none =>
          some ({ state with
              stale := Function.update state.stale device fun _ => false }.moveTo device
            (.syncing objects objects state.remote.listVersions []))
  | .syncing objects [] listing results =>
      some (state.moveTo device
        (.pulling (objects.map SyncObject.objectId) (sorted listing) results))
  | .syncing objects (object :: rest) listing results =>
      some (state.syncNext device objects object rest listing results failure)
  | .pulling _ [] results =>
      some (state.moveTo device (.idle (some (.ok (.of results)))))
  | .pulling localIds ((objectId, version) :: rest) results =>
      some (state.pullNext device localIds objectId version rest results failure)

def step [Fintype Device] : StepFunction (Syncing Device) (SyncAction Device)
  | state, .sync device objects =>
      -- A manager refuses a second run while one goes on.
      if (state.phase device).isIdle then some (state.moveTo device (.listing objects))
      else some state
  | state, .advance device failure => state.advance device failure
  | state, .change remote =>
      if ∀ device, (state.phase device).isIdle = true then
        some { state with remote, owner := fun _ => none }
      else none

/-! What the steps do to the fields that the results below are about. -/

/-- One `_sync_one`: it raises, it only reports, it agrees with the listing, or it
pushes. -/
theorem syncNext_cases (state : Syncing Device) (device : Device)
    (objects : List SyncObject) (object : SyncObject) (rest : List SyncObject)
    (listing : Listing) (results : List SyncResult) (failure : Option TransportError) :
    let after := state.syncNext device objects object rest listing results failure
    let next result := SyncPhase.syncing objects rest listing (results ++ [result])
    let logged result remote :=
      { state with log := state.log ++ [state.handling device object result remote] }
    (∃ raised, after = state.moveTo device (.idle (some (.error raised)))) ∨
    (∃ result, result.state ≠ .uploaded ∧
      ((∃ detail, (state.manager device).decision object listing = .conflict detail) →
        result.state = .conflict) ∧
      (state.manager device).decision object listing ≠ .agree ∧
      after = (logged result state.remote).moveTo device (next result)) ∨
    (∃ result, (state.manager device).decision object listing = .agree ∧
      result.state = .inSync ∧
      after = ((logged result state.remote).note device
        ((state.manager device).acknowledge object.objectId object.version)
        object.objectId object.listing).moveTo device (next result)) ∨
    (∃ detail result, (state.manager device).decision object listing = .push detail ∧
      failure = none ∧ result.state = .uploaded ∧
      after = (((logged result (state.remote.push object)).note device
        ((state.manager device).acknowledge object.objectId object.version)
        object.objectId object.listing).store device (state.remote.push object)
          object.objectId).moveTo device (next result)) := by
  dsimp only
  unfold syncNext SyncManager.syncOne
  cases decided : (state.manager device).decision object listing with
  | skip detail =>
      refine .inr (.inl ⟨SyncManager.record object .skipped detail, nofun, ?_, by simp, rfl⟩)
      simp
  | conflict detail =>
      exact .inr (.inl ⟨SyncManager.record object .conflict detail, nofun, fun _ => rfl,
        by simp, rfl⟩)
  | agree => exact .inr (.inr (.inl ⟨_, rfl, rfl, rfl⟩))
  | push detail =>
      cases failure with
      | none => exact .inr (.inr (.inr ⟨detail, _, rfl, rfl, rfl, rfl⟩))
      | some raised =>
          cases raised with
          | network text =>
              refine .inr (.inl ⟨SyncManager.record object .failed _, nofun, ?_, by simp, rfl⟩)
              simp
          | other text => exact .inl ⟨_, rfl⟩

/-- One entry of the listing: it may be acknowledged as it was listed. -/
private theorem pullNext_cases (state : Syncing Device) (device : Device)
    (localIds : List String) (objectId : String) (version : Version)
    (rest : List (String × Version)) (results : List SyncResult)
    (failure : Option TransportError) :
    let after := state.pullNext device localIds objectId version rest results failure
    ∃ seen phase, SyncPhase.listed phase = none ∧
      (after = { state with pulled := seen }.moveTo device phase ∨
        after = ({ state with pulled := seen }.note device
          ((state.manager device).acknowledge objectId version.1) objectId version).moveTo
            device phase) := by
  dsimp only
  unfold pullNext
  dsimp only
  split
  · exact ⟨state.pulled, _, rfl, .inl rfl⟩
  · split
    · exact ⟨state.pulled, _, rfl, .inl rfl⟩
    · exact ⟨state.pulled, _, rfl, .inl rfl⟩
    · unfold SyncManager.pulled
      split
      · exact ⟨_, _, rfl, .inr rfl⟩
      · exact ⟨_, _, rfl, .inl rfl⟩

/-- A step of a run lists the remote side, handles an object, or keeps the remote side
and may acknowledge an entry of the listing. -/
theorem advance_cases {state after : Syncing Device} {device : Device}
    {failure : Option TransportError} (advanced : state.advance device failure = some after) :
    (∃ objects, state.phase device = .listing objects ∧
      after = { state with
          stale := Function.update state.stale device fun _ => false }.moveTo device
        (.syncing objects objects state.remote.listVersions [])) ∨
    (∃ objects object rest listing results,
      state.phase device = .syncing objects (object :: rest) listing results ∧
      after = state.syncNext device objects object rest listing results failure) ∨
    (∃ seen phase, SyncPhase.listed phase = none ∧
      (after = { state with pulled := seen }.moveTo device phase ∨
        ∃ objectId, ∃ version : Version,
          after = ({ state with pulled := seen }.note device
            ((state.manager device).acknowledge objectId version.1) objectId version).moveTo
              device phase)) := by
  unfold advance at advanced
  split at advanced
  · cases advanced
  · next objects current =>
      split at advanced
      · cases advanced
        exact .inr (.inr ⟨state.pulled, _, rfl, .inl rfl⟩)
      · cases advanced
        exact .inr (.inr ⟨state.pulled, _, rfl, .inl rfl⟩)
      · cases advanced
        exact .inl ⟨objects, current, rfl⟩
  · cases advanced
    exact .inr (.inr ⟨state.pulled, _, rfl, .inl rfl⟩)
  · next objects object rest listing results current =>
      cases advanced
      exact .inr (.inl ⟨objects, object, rest, listing, results, current, rfl⟩)
  · cases advanced
    exact .inr (.inr ⟨state.pulled, _, rfl, .inl rfl⟩)
  · next localIds objectId version rest results current =>
      cases advanced
      rcases pullNext_cases state device localIds objectId version rest results failure with
        ⟨seen, phase, done, kept | acknowledged⟩
      · exact .inr (.inr ⟨seen, phase, done, .inl kept⟩)
      · exact .inr (.inr ⟨seen, phase, done, .inr ⟨objectId, version, acknowledged⟩⟩)

/-! The acknowledged versions of the managers are the ones recorded with a hash. -/

def Recorded (state : Syncing Device) : Prop :=
  ∀ device id, (state.known device id).map Prod.fst =
    (state.manager device).acknowledged.get id

omit [DecidableEq Device] in
theorem recorded_start (policy : Device → SyncPolicy) (remote : Remote) :
    (start policy remote).Recorded := by
  intro device id
  simp [start]

private theorem Recorded.note {state : Syncing Device} (recorded : state.Recorded)
    (device : Device) (objectId : String) (version : Version) :
    (state.note device ((state.manager device).acknowledge objectId version.1) objectId
      version).Recorded := by
  intro other id
  by_cases same : other = device
  · subst same
    by_cases written : id = objectId
    · subst written
      simp [Syncing.note, SyncManager.acknowledge, Dict.get_set]
    · simpa [Syncing.note, SyncManager.acknowledge, Dict.get_set, written,
        Function.update_of_ne written] using recorded other id
  · simpa [Syncing.note, Function.update_of_ne same] using recorded other id

theorem Recorded.step [Fintype Device] {state after : Syncing Device}
    {action : SyncAction Device} (recorded : state.Recorded)
    (stepped : Syncing.step state action = some after) : after.Recorded := by
  cases action with
  | sync device objects =>
      simp only [Syncing.step] at stepped
      split at stepped <;> (cases stepped; exact recorded)
  | change remote =>
      simp only [Syncing.step] at stepped
      split at stepped
      · cases stepped
        exact recorded
      · cases stepped
  | advance device failure =>
      rcases advance_cases stepped with ⟨objects, _, rfl⟩ |
        ⟨objects, object, rest, listing, results, _, rfl⟩ |
        ⟨seen, phase, _, rfl | ⟨objectId, version, rfl⟩⟩
      · exact recorded
      · rcases syncNext_cases state device objects object rest listing results failure with
          ⟨raised, same⟩ | ⟨result, _, _, _, same⟩ | ⟨result, _, _, same⟩ |
          ⟨detail, result, _, _, _, same⟩
        · rw [same]
          exact recorded
        · rw [same]
          exact recorded
        · rw [same]
          exact recorded.note device object.objectId object.listing
        · rw [same]
          exact recorded.note device object.objectId object.listing
      · exact recorded
      · exact recorded.note device objectId version

end Syncing

end Raphael.Cloud
