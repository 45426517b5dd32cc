import Raphael.Cloud.SyncTransport

/-! # The in-memory transport, and its faults

A remote side in memory, with a script of the calls that fail. A call may have been done
by the remote side although it raises. -/

namespace Raphael.Cloud

open Foundation

structure Fault where
  error : TransportError
  /-- The remote side has done the call all the same. -/
  effective : Bool := false
  deriving Repr

structure MockRemote where
  remote : Remote
  /-- What becomes of the next calls; they succeed when it is used up. -/
  faults : List (Option Fault) := []

namespace MockRemote

/-- One call of the remote side. -/
def call {Answer : Type} (effect : Remote → Remote) (answer : Remote → Answer) :
    EStateM TransportError MockRemote Answer := fun world =>
  match world.faults with
  | some fault :: rest =>
      .error fault.error
        { remote := if fault.effective then effect world.remote else world.remote
          faults := rest }
  | none :: rest => .ok (answer world.remote) { remote := effect world.remote, faults := rest }
  | [] => .ok (answer world.remote) { remote := effect world.remote }

/-- The network works again. -/
def restored (world : MockRemote) : MockRemote := { world with faults := [] }

end MockRemote

def mockTransport : SyncTransport MockRemote where
  listVersions := MockRemote.call id Remote.listVersions
  push object := MockRemote.call (·.push object) fun _ => object.version
  pull objectId := MockRemote.call id (·.get objectId)

/-- The session when the network works again. -/
def Session.restored (session : Session MockRemote) : Session MockRemote :=
  { session with world := session.world.restored }

namespace MockRemote

variable {Answer : Type} {effect : Remote → Remote} {answer : Remote → Answer}
  {exchange : Except TransportError Answer → Exchange} {session : Session MockRemote}

/-- A call is done and answered, or it raises and may have been done. -/
theorem ask_call_cases :
    (∃ world, world.remote = effect session.world.remote ∧
      Session.ask (call effect answer) exchange session =
        .ok (.ok (answer session.world.remote))
          ({ session with world }.note (exchange (.ok (answer session.world.remote))))) ∨
    ∃ error world, (world.remote = session.world.remote ∨
        world.remote = effect session.world.remote) ∧
      Session.ask (call effect answer) exchange session =
        .ok (.error error) ({ session with world }.note (exchange (.error error))) := by
  rcases session with ⟨manager, ⟨remote, faults⟩, exchanges, handshakes⟩
  cases faults with
  | nil => exact .inl ⟨⟨effect remote, []⟩, rfl, rfl⟩
  | cons next rest =>
      cases next with
      | none => exact .inl ⟨⟨effect remote, rest⟩, rfl, rfl⟩
      | some fault =>
          refine .inr ⟨fault.error,
            ⟨if fault.effective then effect remote else remote, rest⟩, ?_, rfl⟩
          by_cases effective : fault.effective = true
          · exact .inr (if_pos effective)
          · exact .inl (if_neg effective)

/-- Without faults a call is done and answered. -/
theorem ask_call_of_faultless (faultless : session.world.faults = []) :
    Session.ask (call effect answer) exchange session =
      .ok (.ok (answer session.world.remote))
        (({ session with world := { remote := effect session.world.remote } } :
          Session MockRemote).note (exchange (.ok (answer session.world.remote)))) := by
  rcases session with ⟨manager, ⟨remote, faults⟩, exchanges, handshakes⟩
  cases faultless
  rfl

end MockRemote

namespace SyncTransport

variable {session : Session MockRemote}

/-- A push is acknowledged, or it raises and may have been done. -/
theorem pushObject_cases (session : Session MockRemote) (object : SyncObject)
    (detail : String) :
    let after := leaves (mockTransport.pushObject object detail) session
    (after.manager = session.manager.acknowledge object.objectId object.version ∧
      after.world.remote = session.world.remote.push object ∧
      after.exchanges = session.exchanges ++ [.pushed object (.ok object.version)]) ∨
    (after.manager = session.manager ∧
      (after.world.remote = session.world.remote ∨
        after.world.remote = session.world.remote.push object) ∧
      ∃ error, after.exchanges = session.exchanges ++ [.pushed object (.error error)]) := by
  have pushed := @MockRemote.ask_call_cases String (·.push object)
    (fun _ => object.version) (.pushed object) session
  unfold leaves pushObject
  dsimp only
  rw [bind_apply]
  change (∃ world, _ ∧ Session.ask (mockTransport.push object) _ _ = _) ∨
    (∃ error world, _ ∧ Session.ask (mockTransport.push object) _ _ = _) at pushed
  rcases pushed with ⟨world, done, asked⟩ | ⟨error, world, maybe, asked⟩
  · rw [asked]
    exact .inl ⟨rfl, done, rfl⟩
  · rw [asked]
    right
    cases error with
    | network text => exact ⟨rfl, maybe, _, rfl⟩
    | other text => exact ⟨rfl, maybe, _, rfl⟩

theorem pushObject_of_faultless (faultless : session.world.faults = [])
    (object : SyncObject) (detail : String) :
    mockTransport.pushObject object detail session =
      .ok (SyncManager.record object .uploaded detail)
        (session.shake { remote := session.world.remote.push object }
          (.pushed object (.ok object.version)) object.objectId object.version) := by
  have pushed := @MockRemote.ask_call_of_faultless String (·.push object)
    (fun _ => object.version) (.pushed object) session faultless
  unfold pushObject
  rw [bind_apply]
  change Session.ask (mockTransport.push object) _ _ = _ at pushed
  rw [pushed]
  rfl

/-- One entry of the listing leaves the remote side, and what is acknowledged for the local
objects. -/
theorem pullOne_leaves (session : Session MockRemote) (localIds : List String)
    (entry : String × Version) :
    let after := leaves (mockTransport.pullOne localIds entry) session
    after.world.remote = session.world.remote ∧
      (after.manager = session.manager ∨ entry.1 ∉ localIds ∧
        after.manager = session.manager.acknowledge entry.1 entry.2.1) ∧
      (after.exchanges = session.exchanges ∨ ∃ answer,
        after.exchanges = session.exchanges ++ [.pulled entry.1 (some entry.2.1) answer]) := by
  have pulled := @MockRemote.ask_call_cases (Option SyncObject) id (·.get entry.1)
    (.pulled entry.1 (some entry.2.1)) session
  unfold leaves pullOne
  dsimp only
  rw [get_bind_apply]
  by_cases passed : session.manager.passesOver localIds entry.1 entry.2.1 = true
  · simp only [passed, if_true]
    exact ⟨rfl, .inl rfl, .inl rfl⟩
  · have foreign : entry.1 ∉ localIds := by
      intro member
      exact passed (by simp [SyncManager.passesOver, member])
    simp only [passed, if_false, bind_apply, Bool.false_eq_true]
    change (∃ world, _ ∧ Session.ask (mockTransport.pull entry.1) _ _ = _) ∨
      (∃ error world, _ ∧ Session.ask (mockTransport.pull entry.1) _ _ = _) at pulled
    rcases pulled with ⟨world, done, asked⟩ | ⟨error, world, maybe, asked⟩
    · rw [asked]
      cases session.world.remote.get entry.1 with
      | none => exact ⟨done, .inl rfl, .inr ⟨_, rfl⟩⟩
      | some remote =>
          by_cases allowed : session.manager.policy.canDownload
              (session.manager.policy.classify remote) = true
          · simp only [allowed, if_true]
            exact ⟨done, .inr ⟨foreign, rfl⟩, .inr ⟨_, rfl⟩⟩
          · simp only [allowed]
            exact ⟨done, .inl rfl, .inr ⟨_, rfl⟩⟩
    · rw [asked]
      exact ⟨maybe.elim id id, .inl rfl, .inr ⟨_, rfl⟩⟩

/-- Without faults, an entry of the listing is gone through. -/
theorem pullOne_of_faultless (faultless : session.world.faults = [])
    (localIds : List String) (entry : String × Version) :
    ∃ result after, mockTransport.pullOne localIds entry session = .ok result after ∧
      after.world.faults = [] := by
  have pulled := @MockRemote.ask_call_of_faultless (Option SyncObject) id (·.get entry.1)
    (.pulled entry.1 (some entry.2.1)) session faultless
  unfold pullOne
  rw [get_bind_apply]
  by_cases passed : session.manager.passesOver localIds entry.1 entry.2.1 = true
  · simp only [passed, if_true]
    exact ⟨none, session, rfl, faultless⟩
  · simp only [passed, if_false, bind_apply, Bool.false_eq_true]
    change Session.ask (mockTransport.pull entry.1) _ _ = _ at pulled
    rw [pulled]
    cases session.world.remote.get entry.1 with
    | none => exact ⟨_, _, rfl, rfl⟩
    | some remote =>
        dsimp only
        split
        · exact ⟨_, _, rfl, rfl⟩
        · exact ⟨_, _, rfl, rfl⟩

/-- The listing of the remote side, or a failure. -/
theorem listVersions_cases (session : Session MockRemote) :
    (∃ world, world.remote = session.world.remote ∧
      Session.ask mockTransport.listVersions .listed session =
        .ok (.ok session.world.remote.listVersions)
          ({ session with world }.note (.listed (.ok session.world.remote.listVersions)))) ∨
    ∃ error world, world.remote = session.world.remote ∧
      Session.ask mockTransport.listVersions .listed session =
        .ok (.error error) ({ session with world }.note (.listed (.error error))) := by
  rcases @MockRemote.ask_call_cases Listing id Remote.listVersions .listed session with
    done | ⟨error, world, maybe, asked⟩
  · exact .inl done
  · exact .inr ⟨error, world, maybe.elim id id, asked⟩

theorem listVersions_of_faultless (faultless : session.world.faults = []) :
    Session.ask mockTransport.listVersions .listed session =
      .ok (.ok session.world.remote.listVersions)
        (session.note (.listed (.ok session.world.remote.listVersions))) := by
  have listed := @MockRemote.ask_call_of_faultless Listing id Remote.listVersions .listed
    session faultless
  rcases session with ⟨manager, ⟨remote, faults⟩, exchanges, handshakes⟩
  cases faultless
  exact listed

/-- Over the in-memory transport `_sync_one` does what the steps of concurrent runs do with
one object. -/
theorem syncOne_mock (listing : Listing) (object : SyncObject)
    (failure : Option TransportError) (rest : List (Option Fault))
    (next : session.world.faults = (failure.map fun error => { error }) :: rest) :
    let outcome := session.manager.syncOne session.world.remote object listing failure
    let after := leaves (mockTransport.syncOne listing object) session
    after.manager = outcome.manager ∧ after.world.remote = outcome.remote ∧
      ∀ result, outcome.result = .ok result →
        mockTransport.syncOne listing object session = .ok result after := by
  rcases session with ⟨manager, ⟨remote, faults⟩, exchanges, handshakes⟩
  cases next
  unfold SyncManager.syncOne leaves
  dsimp only
  cases decided : manager.decision object listing with
  | skip detail =>
      rw [syncOne_of_skip decided]
      refine ⟨rfl, rfl, fun result isResult => ?_⟩
      cases isResult
      rfl
  | conflict detail =>
      rw [syncOne_of_conflict decided]
      refine ⟨rfl, rfl, fun result isResult => ?_⟩
      cases isResult
      rfl
  | agree =>
      rw [syncOne_of_agree decided]
      refine ⟨rfl, rfl, fun result isResult => ?_⟩
      cases isResult
      rfl
  | push detail =>
      rw [syncOne_of_push decided]
      cases failure with
      | none =>
          refine ⟨rfl, rfl, fun result isResult => ?_⟩
          cases isResult
          rfl
      | some error =>
          cases error with
          | network text =>
              refine ⟨rfl, rfl, fun result isResult => ?_⟩
              cases isResult
              rfl
          | other text =>
              refine ⟨rfl, rfl, fun result isResult => ?_⟩
              cases isResult

end SyncTransport

end Raphael.Cloud
