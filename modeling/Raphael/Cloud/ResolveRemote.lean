import Raphael.Cloud.MockTransport

/-! # Resolving in favour of the remote side

`resolve` acknowledges the version of the remote object that it keeps. The next run reads
an acknowledged version as its own last push, and takes a local object that differs for the
newer one. -/

namespace Raphael.Cloud

open Foundation

namespace SyncTransport

variable {session after : Session MockRemote} {objectId : String} {objects : List SyncObject}

private theorem keepRemote_downloaded {object : SyncObject} {result : SyncResult}
    (returns : mockTransport.keepRemote objectId object session = .ok result after)
    (downloaded : result.state = .downloaded) :
    after.world.remote = session.world.remote ∧
      ∃ remote, session.world.remote.get objectId = some remote ∧
        after.manager = session.manager.acknowledge objectId remote.version := by
  have pulled := @MockRemote.ask_call_cases (Option SyncObject) id (·.get objectId)
    (.pulled objectId none) session
  unfold keepRemote at returns
  rw [bind_apply] at returns
  change (∃ world, _ ∧ Session.ask (mockTransport.pull objectId) _ _ = _) ∨
    (∃ error world, _ ∧ Session.ask (mockTransport.pull objectId) _ _ = _) at pulled
  rcases pulled with ⟨world, done, asked⟩ | ⟨error, world, maybe, asked⟩
  · rw [asked] at returns
    cases stored : session.world.remote.get objectId with
    | none =>
        simp only [stored] at returns
        cases returns
        cases downloaded
    | some remote =>
        by_cases allowed : session.manager.policy.canDownload
            (session.manager.policy.classify remote) = true
        · simp only [stored, get_bind_apply, Session.note_manager, allowed, if_true]
            at returns
          cases returns
          exact ⟨done, remote, rfl, rfl⟩
        · simp only [stored, get_bind_apply, Session.note_manager, allowed] at returns
          cases returns
          cases downloaded
  · rw [asked] at returns
    cases returns

/-- What `resolve` has done when it has downloaded. -/
theorem resolve_downloaded {result : SyncResult}
    (returns : mockTransport.resolve objectId "remote" objects session = .ok result after)
    (downloaded : result.state = .downloaded) :
    after.world.remote = session.world.remote ∧
      ∃ remote, session.world.remote.get objectId = some remote ∧
        after.manager = session.manager.acknowledge objectId remote.version := by
  unfold resolve at returns
  rw [if_neg (by decide)] at returns
  cases found : objects.find? (·.objectId = objectId) with
  | none =>
      rw [found] at returns
      cases returns
  | some object =>
      rw [found] at returns
      dsimp only at returns
      rw [bind_apply] at returns
      rcases listVersions_cases session with ⟨world, same, asked⟩ | ⟨error, world, same, asked⟩
      · rw [asked] at returns
        simp only [if_neg (show ¬ "remote" = "local" by decide)] at returns
        rcases keepRemote_downloaded returns downloaded with ⟨kept, remote, stored, known⟩
        exact ⟨kept.trans same, remote, same ▸ stored, known⟩
      · rw [asked] at returns
        cases error with
        | network text =>
            cases returns
            cases downloaded
        | other text => cases returns

/-- Without faults, what becomes of the remote side and of what is acknowledged: nothing,
a match or a push. -/
private theorem syncOne_cases (faultless : session.world.faults = []) (listing : Listing)
    (object : SyncObject) :
    ∃ result after, mockTransport.syncOne listing object session = .ok result after ∧
      after.world.faults = [] ∧
      ((session.manager.decision object listing = .agree ∧
          after.world.remote = session.world.remote ∧
          after.manager =
            session.manager.acknowledge object.objectId object.version) ∨
        ((∃ detail, session.manager.decision object listing = .push detail) ∧
          after.world.remote = session.world.remote.push object ∧
          after.manager =
            session.manager.acknowledge object.objectId object.version) ∨
        (session.manager.decision object listing ≠ .agree ∧
          (∀ detail, session.manager.decision object listing ≠ .push detail) ∧
          after = session)) := by
  cases decided : session.manager.decision object listing with
  | skip detail =>
      exact ⟨_, session, syncOne_of_skip decided, faultless,
        .inr (.inr ⟨by simp, by simp, rfl⟩)⟩
  | conflict detail =>
      exact ⟨_, session, syncOne_of_conflict decided, faultless,
        .inr (.inr ⟨by simp, by simp, rfl⟩)⟩
  | agree => exact ⟨_, _, syncOne_of_agree decided, faultless, .inl ⟨rfl, rfl, rfl⟩⟩
  | push detail =>
      rw [syncOne_of_push decided]
      exact ⟨_, _, pushObject_of_faultless faultless object detail, rfl,
        .inr (.inl ⟨⟨detail, rfl⟩, rfl, rfl⟩)⟩

/-- A local object that may be uploaded differs from the remote object of the id. -/
private def Differs (policy : SyncPolicy) (objectId : String) (remote object : SyncObject) :
    Prop :=
  object.objectId = objectId ∧ policy.canUpload object = true ∧
    object.listing ≠ remote.listing

/-- A run over objects some of which are left, behind a resolution: the remote object is
still there, and the ones that differ from it are to come; or one of them has replaced
it. -/
private structure Following (policy : SyncPolicy) (objectId : String) (remote : SyncObject)
    (objects rest : List SyncObject) (session : Session MockRemote) : Prop where
  faultless : session.world.faults = []
  under : session.manager.policy = policy
  within : rest ⊆ objects
  entry : (session.world.remote.get objectId = some remote ∧
      session.manager.acknowledged.get objectId = some remote.version ∧
      ∀ object ∈ objects, Differs policy objectId remote object → object ∈ rest) ∨
    (∃ object ∈ objects, Differs policy objectId remote object) ∧
      ∃ stored, session.world.remote.get objectId = some stored ∧
        stored.listing ≠ remote.listing

private theorem Following.step {policy : SyncPolicy} {remote object : SyncObject}
    {rest : List SyncObject} {listing : Listing}
    (following : Following policy objectId remote objects (object :: rest) session)
    (listed : listing.get objectId = some remote.listing) {result : SyncResult}
    (returns : mockTransport.syncOne listing object session = .ok result after) :
    Following policy objectId remote objects rest after := by
  have within : rest ⊆ objects := fun _ later =>
    following.within (List.mem_cons_of_mem _ later)
  rcases syncOne_cases following.faultless listing object with
    ⟨other, final, ran, faultless, cases⟩
  rw [ran] at returns
  cases returns
  have policySame : after.manager.policy = policy := by
    rw [← following.under]
    rcases cases with ⟨_, _, manages⟩ | ⟨_, _, manages⟩ | ⟨_, _, same⟩
    · rw [manages]
      rfl
    · rw [manages]
      rfl
    · rw [same]
  refine ⟨faultless, policySame, within, ?_⟩
  by_cases named : object.objectId = objectId
  · subst named
    rcases cases with ⟨agrees, stored, manages⟩ | ⟨⟨detail, pushes⟩, stored, manages⟩ |
      ⟨disagrees, pushless, rfl⟩
    · -- The object is the remote one.
      have same : object.listing = remote.listing := by
        have matched := (SyncManager.listed_of_agree agrees).2
        rw [listed] at matched
        exact (Option.some.inj matched).symm
      rw [stored, manages, SyncManager.acknowledge, Dict.get_set, if_pos rfl]
      rcases following.entry with ⟨kept, _, toCome⟩ | replaced
      · refine .inl ⟨kept, congrArg (some ·.1) same, fun other member differs => ?_⟩
        rcases List.mem_cons.mp (toCome other member differs) with rfl | later
        · exact absurd same differs.2.2
        · exact later
      · exact .inr replaced
    · -- The acknowledged version makes the object the newer one.
      have pushed := SyncManager.listed_of_push pushes
      have other := (pushed.2 _ listed).1
      refine .inr ⟨⟨object, following.within List.mem_cons_self, rfl,
        following.under ▸ pushed.1, other.symm⟩, object, ?_, other.symm⟩
      rw [stored, Remote.push, Dict.get_set, if_pos rfl]
    · rcases following.entry with ⟨kept, known, toCome⟩ | replaced
      · refine .inl ⟨kept, known, fun other member differs => ?_⟩
        rcases List.mem_cons.mp (toCome other member differs) with rfl | later
        · exfalso
          rcases differs with ⟨_, uploadable, differs⟩
          rw [← following.under] at uploadable
          apply pushless "local newer"
          rw [SyncManager.decision_of_uploadable uploadable, listed]
          exact (if_neg differs.symm).trans (if_pos known)
        · exact later
      · exact .inr replaced
  · have differs : objectId ≠ object.objectId := Ne.symm named
    have entry : (session.world.remote.get objectId = some remote ∧
          session.manager.acknowledged.get objectId = some remote.version ∧
          ∀ other ∈ objects, Differs policy objectId remote other → other ∈ rest) ∨
        (∃ other ∈ objects, Differs policy objectId remote other) ∧
          ∃ stored, session.world.remote.get objectId = some stored ∧
            stored.listing ≠ remote.listing := by
      rcases following.entry with ⟨kept, known, toCome⟩ | replaced
      · refine .inl ⟨kept, known, fun other member otherDiffers => ?_⟩
        rcases List.mem_cons.mp (toCome other member otherDiffers) with rfl | later
        · exact absurd otherDiffers.1 named
        · exact later
      · exact .inr replaced
    rcases cases with ⟨_, stored, manages⟩ | ⟨_, stored, manages⟩ | ⟨_, _, rfl⟩
    · rw [stored, manages, SyncManager.acknowledge, Dict.get_set, if_neg differs]
      exact entry
    · rw [stored, manages, Remote.push, SyncManager.acknowledge, Dict.get_set, Dict.get_set,
        if_neg differs, if_neg differs]
      exact entry
    · exact entry

/-- Going through the listing leaves the remote side. -/
private theorem pullNew_leaves (session : Session MockRemote) (objects : List SyncObject)
    (listing : Listing) :
    (leaves (mockTransport.pullNew objects listing) session).world.remote =
      session.world.remote := by
  have keeps : Preserves (fun state : Session MockRemote =>
      state.world.remote = session.world.remote) (mockTransport.pullNew objects listing) := by
    apply Preserves.bind
    · refine Preserves.mapM (fun entry state same => ?_) _
      exact (pullOne_leaves state (objects.map SyncObject.objectId) entry).1.trans same
    · exact fun _ => .pure _
  exact keeps session rfl

/-- The run behind a resolution, over all objects. -/
private theorem following_sync (faultless : session.world.faults = []) {remote : SyncObject}
    (stored : session.world.remote.get objectId = some remote)
    (known : session.manager.acknowledged.get objectId = some remote.version) :
    ∃ between, Following session.manager.policy objectId remote objects [] between ∧
      (leaves (mockTransport.sync objects) session).world.remote =
        between.world.remote := by
  have listed : session.world.remote.listVersions.get objectId = some remote.listing := by
    rw [Remote.listVersions, Dict.get_map, stored]
    rfl
  have start : Following session.manager.policy objectId remote objects objects
      (session.note (.listed (.ok session.world.remote.listVersions))) :=
    ⟨faultless, rfl, fun _ member => member,
      .inl ⟨stored, known, fun _ member _ => member⟩⟩
  have loop := mapM_indexed
    (Following session.manager.policy objectId remote objects) (fun _ => False)
    (fun object rest state result after following returns => following.step listed returns)
    (fun object rest state error after following raises => by
      rcases syncOne_cases following.faultless session.world.remote.listVersions object with
        ⟨_, _, returns, _⟩
      rw [returns] at raises
      cases raises) start
  unfold leaves sync
  rw [bind_apply, listVersions_of_faultless faultless]
  dsimp only
  rw [bind_apply]
  cases handled : objects.mapM (mockTransport.syncOne session.world.remote.listVersions)
      (session.note (.listed (.ok session.world.remote.listVersions))) with
  | error error after => exact (loop.2 error after handled).elim
  | ok results between =>
      refine ⟨between, loop.1 results between handled, ?_⟩
      have kept := pullNew_leaves between objects session.world.remote.listVersions
      unfold leaves at kept
      dsimp only
      rw [bind_apply]
      cases pulled : mockTransport.pullNew objects session.world.remote.listVersions
          between with
      | ok fetched after =>
          rw [pulled] at kept
          exact kept
      | error error after =>
          rw [pulled] at kept
          exact kept

/-- Behind a resolution in favour of the remote side, the next run leaves the remote object
alone if and only if no local object that may be uploaded differs from it. -/
theorem resolved_kept_iff {result : SyncResult}
    (returns : mockTransport.resolve objectId "remote" objects session = .ok result after)
    (downloaded : result.state = .downloaded) :
    (mockTransport.behind after.restored (.sync objects)).world.remote.get objectId =
        after.world.remote.get objectId ↔
      ∀ object ∈ objects, object.objectId = objectId →
        session.manager.policy.canUpload object = true →
        session.world.remote.listVersions.get objectId = some object.listing := by
  rcases resolve_downloaded returns downloaded with ⟨kept, remote, stored, manages⟩
  rcases @following_sync { after.restored with exchanges := [] } objectId objects rfl remote
    (by rw [← stored, ← kept]; rfl)
    (by
      change after.manager.acknowledged.get objectId = _
      rw [manages, SyncManager.acknowledge, Dict.get_set, if_pos rfl])
    with ⟨between, following, same⟩
  have policy : after.manager.policy = session.manager.policy := by rw [manages]; rfl
  rw [behind_sync, same, kept, stored, Remote.listVersions, Dict.get_map, stored,
    Option.map_some]
  rcases following.entry with ⟨unchanged, _, done⟩ |
    ⟨⟨object, member, named, uploadable, differs⟩, other, replaced, otherListing⟩
  · constructor
    · intro _ object member named uploadable
      by_contra differs
      have later := done object member ⟨named, policy ▸ uploadable,
        fun same => differs (congrArg some same.symm)⟩
      cases later
    · exact fun _ => unchanged
  · constructor
    · intro isKept
      rw [replaced] at isKept
      exact absurd (congrArg SyncObject.listing (Option.some.inj isKept)) otherListing
    · intro agree
      have uploadable : session.manager.policy.canUpload object = true := policy ▸ uploadable
      exact absurd (Option.some.inj (agree object member named uploadable)).symm differs

/-- A task that was edited on both sides. -/
def localEdit : SyncObject :=
  { objectId := "task:1", objectType := "task", version := "v2", contentHash := "local" }

def remoteEdit : SyncObject :=
  { objectId := "task:1", objectType := "task", version := "v9", contentHash := "remote" }

def editedTwice : Session MockRemote where
  manager := {}
  world := { remote := Dict.empty.set "task:1" remoteEdit }

/-- `editedTwice` after `resolve` has kept the remote object. -/
def remoteKept : Session MockRemote :=
  leaves (mockTransport.resolve "task:1" "remote" [localEdit]) editedTwice

private theorem resolve_editedTwice :
    mockTransport.resolve "task:1" "remote" [localEdit] editedTwice =
      .ok (resolved localEdit "task:1" .downloaded "conflict kept remote") remoteKept := by
  rfl

theorem resolved_kept_iff_of_remoteKept :
    (mockTransport.behind remoteKept.restored (.sync [localEdit])).world.remote.get "task:1" =
        remoteKept.world.remote.get "task:1" ↔
      ∀ object ∈ [localEdit], object.objectId = "task:1" →
        editedTwice.manager.policy.canUpload object = true →
        editedTwice.world.remote.listVersions.get "task:1" = some object.listing :=
  resolved_kept_iff resolve_editedTwice rfl

/-- The next run pushes the local object over the remote one that was kept. -/
theorem kept_remote_overwritten :
    ¬ ∀ (session after : Session MockRemote) (objectId : String) (objects : List SyncObject)
      (result : SyncResult),
      mockTransport.resolve objectId "remote" objects session = .ok result after →
      result.state = .downloaded →
      (mockTransport.behind after.restored (.sync objects)).world.remote.get objectId =
        after.world.remote.get objectId := by
  intro sticks
  have same := sticks editedTwice remoteKept "task:1" [localEdit] _ resolve_editedTwice rfl
  have versions := congrArg (Option.map SyncObject.version) same
  exact absurd versions (by decide +kernel)

end SyncTransport

end Raphael.Cloud
