import Raphael.Cloud.MockTransport

/-! # Interrupted runs, and the runs behind them

A run over the in-memory transport is broken off at any of its calls. What it has done to
an object is nothing, or all that an uninterrupted run would have done; the next run does
the rest. -/

namespace Raphael.Cloud

open Foundation

namespace SyncManager

def Pushes (manager : SyncManager) (object : SyncObject) (listing : Listing) : Prop :=
  ∃ detail, manager.decision object listing = .push detail

variable {manager : SyncManager} {object : SyncObject} {listing : Listing}

theorem not_pushes_of_agree (agrees : manager.decision object listing = .agree) :
    ¬ manager.Pushes object listing := by
  rintro ⟨detail, pushes⟩
  rw [agrees] at pushes
  cases pushes

/-- What is listed as it is itself is not pushed. -/
theorem listed_ne_of_pushes (pushes : manager.Pushes object listing) :
    listing.get object.objectId ≠ some object.listing := by
  rcases pushes with ⟨detail, decided⟩
  intro listed
  exact ((listed_of_push decided).2 object.listing listed).1 rfl

end SyncManager

/-- What a run that started from a manager and a remote side has done to an object. -/
inductive Progress (manager : SyncManager) (remote : Remote) (object : SyncObject)
    (session : Session MockRemote) : Prop
  | waiting
      (stored : session.world.remote.get object.objectId = remote.get object.objectId)
      (known : session.manager.acknowledged.get object.objectId =
        manager.acknowledged.get object.objectId)
  /-- A push that was done may not have been acknowledged. -/
  | pushed (pushes : manager.Pushes object remote.listVersions)
      (stored : session.world.remote.get object.objectId = some object)
      (known : session.manager.acknowledged.get object.objectId =
          manager.acknowledged.get object.objectId ∨
        session.manager.acknowledged.get object.objectId = some object.version)
  | agreed (agrees : manager.decision object remote.listVersions = .agree)
      (stored : session.world.remote.get object.objectId = remote.get object.objectId)
      (known : session.manager.acknowledged.get object.objectId = some object.version)

/-- A run over some objects, wherever it stands. -/
structure Underway (manager : SyncManager) (remote : Remote) (objects : List SyncObject)
    (session : Session MockRemote) : Prop where
  policy : session.manager.policy = manager.policy
  foreign : ∀ objectId ∉ objects.map SyncObject.objectId,
    session.world.remote.get objectId = remote.get objectId
  progress : ∀ object ∈ objects, Progress manager remote object session
  uploads : ∀ object version, Exchange.pushed object (.ok version) ∈ session.exchanges →
    object ∈ objects ∧ manager.policy.canUpload object = true ∧
      session.world.remote.get object.objectId = some object

namespace Underway

variable {manager : SyncManager} {remote : Remote} {objects : List SyncObject}
  {session after : Session MockRemote} {object : SyncObject}

private theorem eq_of_objectId (distinct : (objects.map SyncObject.objectId).Nodup)
    {other : SyncObject} (member : object ∈ objects) (within : other ∈ objects)
    (same : other.objectId = object.objectId) : other = object :=
  List.inj_on_of_nodup_map distinct within member same

/-- Progress depends on the entries of its id only. -/
private theorem progress_congr {other : SyncObject}
    (progress : Progress manager remote other session)
    (stored : after.world.remote.get other.objectId =
      session.world.remote.get other.objectId)
    (known : after.manager.acknowledged.get other.objectId =
      session.manager.acknowledged.get other.objectId) :
    Progress manager remote other after := by
  cases progress with
  | waiting before acknowledged => exact .waiting (stored.trans before) (known.trans acknowledged)
  | pushed pushes before acknowledged =>
      exact .pushed pushes (stored.trans before) (known ▸ acknowledged)
  | agreed agrees before acknowledged =>
      exact .agreed agrees (stored.trans before) (known.trans acknowledged)

/-- A step that is about one object. -/
private theorem step (underway : Underway manager remote objects session)
    (distinct : (objects.map SyncObject.objectId).Nodup) (member : object ∈ objects)
    (policy : after.manager.policy = session.manager.policy)
    (stored : ∀ objectId ≠ object.objectId,
      after.world.remote.get objectId = session.world.remote.get objectId)
    (known : ∀ objectId ≠ object.objectId, after.manager.acknowledged.get objectId =
      session.manager.acknowledged.get objectId)
    (here : Progress manager remote object after)
    (stays : session.world.remote.get object.objectId = some object →
      after.world.remote.get object.objectId = some object)
    (uploads : ∀ other version, Exchange.pushed other (.ok version) ∈ after.exchanges →
      Exchange.pushed other (.ok version) ∈ session.exchanges ∨
        other = object ∧ session.manager.policy.canUpload object = true ∧
          after.world.remote.get object.objectId = some object) :
    Underway manager remote objects after where
  policy := policy.trans underway.policy
  foreign := by
    intro objectId isForeign
    have differs : objectId ≠ object.objectId :=
      fun same => isForeign (same ▸ List.mem_map_of_mem member)
    rw [stored objectId differs, underway.foreign objectId isForeign]
  progress := by
    intro other within
    by_cases same : other.objectId = object.objectId
    · exact eq_of_objectId distinct member within same ▸ here
    · exact progress_congr (underway.progress other within) (stored _ same) (known _ same)
  uploads := by
    intro other version exchanged
    rcases uploads other version exchanged with earlier | ⟨rfl, uploadable, isStored⟩
    · rcases underway.uploads other version earlier with ⟨within, uploadable, isStored⟩
      refine ⟨within, uploadable, ?_⟩
      by_cases same : other.objectId = object.objectId
      · cases eq_of_objectId distinct member within same
        exact stays isStored
      · rw [stored _ same, isStored]
    · exact ⟨member, underway.policy ▸ uploadable, isStored⟩

private theorem acknowledged_of_ne {objectId version other : String}
    (differs : other ≠ objectId) :
    (session.manager.acknowledge objectId version).acknowledged.get other =
      session.manager.acknowledged.get other := by
  rw [SyncManager.acknowledge, Dict.get_set, if_neg differs]

private theorem get_push_of_ne {objectId : String} (store : Remote)
    (differs : objectId ≠ object.objectId) :
    (store.push object).get objectId = store.get objectId := by
  rw [Remote.push, Dict.get_set, if_neg differs]

private theorem get_push (store : Remote) :
    (store.push object).get object.objectId = some object := by
  rw [Remote.push, Dict.get_set, if_pos rfl]

/-- What is decided for an object in a run underway, beside what was decided at its
start. -/
private theorem decision_of_waiting (underway : Underway manager remote objects session)
    (known : session.manager.acknowledged.get object.objectId =
      manager.acknowledged.get object.objectId) :
    session.manager.decision object remote.listVersions =
      manager.decision object remote.listVersions :=
  SyncManager.decision_congr underway.policy known rfl

/-- An object that is pushed was to be pushed at the start. -/
private theorem pushes_of_pushes (underway : Underway manager remote objects session)
    (member : object ∈ objects)
    (pushes : session.manager.Pushes object remote.listVersions) :
    manager.Pushes object remote.listVersions ∧
      (session.manager.acknowledged.get object.objectId =
          manager.acknowledged.get object.objectId ∨
        session.manager.acknowledged.get object.objectId = some object.version) := by
  cases underway.progress object member with
  | waiting stored known =>
      unfold SyncManager.Pushes at pushes
      rw [underway.decision_of_waiting known] at pushes
      exact ⟨pushes, .inl known⟩
  | pushed atStart stored known => exact ⟨atStart, known⟩
  | agreed agrees stored known =>
      exact absurd (SyncManager.listed_of_agree agrees).2
        (SyncManager.listed_ne_of_pushes pushes)

/-- An object is pushed, acknowledged or not. -/
private theorem push (underway : Underway manager remote objects session)
    (distinct : (objects.map SyncObject.objectId).Nodup) (member : object ∈ objects)
    {detail : String}
    (decided : session.manager.decision object remote.listVersions = .push detail) :
    Underway manager remote objects
      (leaves (mockTransport.pushObject object detail) session) := by
  rcases underway.pushes_of_pushes member ⟨detail, decided⟩ with ⟨atStart, known⟩
  have uploadable := (SyncManager.listed_of_push decided).1
  have cases := SyncTransport.pushObject_cases session object detail
  generalize leaves (mockTransport.pushObject object detail) session = after at cases ⊢
  rcases cases with ⟨acknowledged, done, exchanges⟩ | ⟨same, maybe, error, exchanges⟩
  · have isStored : after.world.remote.get object.objectId = some object := by
      rw [done, get_push]
    apply underway.step distinct member
    · rw [acknowledged]
      rfl
    · intro objectId differs
      rw [done, get_push_of_ne _ differs]
    · intro objectId differs
      rw [acknowledged, acknowledged_of_ne differs]
    · refine .pushed atStart isStored (.inr ?_)
      rw [acknowledged, SyncManager.acknowledge, Dict.get_set, if_pos rfl]
    · exact fun _ => isStored
    · intro other version exchanged
      rw [exchanges] at exchanged
      rcases List.mem_append.mp exchanged with earlier | new
      · exact .inl earlier
      · cases List.mem_singleton.mp new
        exact .inr ⟨rfl, uploadable, isStored⟩
  · apply underway.step distinct member
    · rw [same]
    · intro objectId differs
      rcases maybe with kept | done
      · rw [kept]
      · rw [done, get_push_of_ne _ differs]
    · intro objectId _
      rw [same]
    · rcases maybe with kept | done
      · exact progress_congr (underway.progress object member) (by rw [kept]) (by rw [same])
      · exact .pushed atStart (by rw [done, get_push]) (same ▸ known)
    · intro before
      rcases maybe with kept | done
      · rw [kept, before]
      · rw [done, get_push]
    · intro other version exchanged
      rw [exchanges] at exchanged
      rcases List.mem_append.mp exchanged with earlier | new
      · exact .inl earlier
      · cases List.mem_singleton.mp new

/-- An object is found in agreement and acknowledged. -/
private theorem agree (underway : Underway manager remote objects session)
    (distinct : (objects.map SyncObject.objectId).Nodup) (member : object ∈ objects)
    (decided : session.manager.decision object remote.listVersions = .agree) :
    Underway manager remote objects
      (session.shake session.world (.matched object) object.objectId object.version) := by
  have listed := SyncManager.listed_of_agree decided
  have atStart : manager.decision object remote.listVersions = .agree :=
    SyncManager.agree_of_listed (underway.policy ▸ listed.1) listed.2
  have stored : session.world.remote.get object.objectId = remote.get object.objectId := by
    cases underway.progress object member with
    | waiting stored known => exact stored
    | pushed pushes stored known =>
        exact absurd pushes (SyncManager.not_pushes_of_agree atStart)
    | agreed agrees stored known => exact stored
  apply underway.step distinct member
  · rfl
  · exact fun _ _ => rfl
  · intro objectId differs
    exact acknowledged_of_ne differs
  · refine .agreed atStart stored ?_
    rw [Session.shake, SyncManager.acknowledge, Dict.get_set, if_pos rfl]
  · exact id
  · intro other version exchanged
    rcases List.mem_append.mp exchanged with earlier | new
    · exact .inl earlier
    · cases List.mem_singleton.mp new

/-- `_sync_one` keeps a run underway, whether it returns or raises. -/
private theorem syncOne (distinct : (objects.map SyncObject.objectId).Nodup)
    (member : object ∈ objects) :
    Preserves (Underway manager remote objects)
      (mockTransport.syncOne remote.listVersions object) := by
  intro session underway
  unfold leaves
  cases decided : session.manager.decision object remote.listVersions with
  | skip detail =>
      rw [SyncTransport.syncOne_of_skip decided]
      exact underway
  | push detail =>
      rw [SyncTransport.syncOne_of_push decided]
      exact underway.push distinct member decided
  | agree =>
      rw [SyncTransport.syncOne_of_agree decided]
      exact underway.agree distinct member decided
  | conflict detail =>
      rw [SyncTransport.syncOne_of_conflict decided]
      exact underway

/-- An entry of the listing is about no local object. -/
private theorem pullOne (entry : String × Version) :
    Preserves (Underway manager remote objects)
      (mockTransport.pullOne (objects.map SyncObject.objectId) entry) := by
  intro session underway
  have cases := SyncTransport.pullOne_leaves session (objects.map SyncObject.objectId) entry
  generalize leaves (mockTransport.pullOne (objects.map SyncObject.objectId) entry) session =
    after at cases ⊢
  rcases cases with ⟨stored, manages, exchanges⟩
  have known : ∀ other ∈ objects, after.manager.acknowledged.get other.objectId =
      session.manager.acknowledged.get other.objectId := by
    intro other within
    rcases manages with same | ⟨isForeign, acknowledged⟩
    · rw [same]
    · rw [acknowledged]
      exact acknowledged_of_ne fun same => isForeign (same ▸ List.mem_map_of_mem within)
  refine ⟨?_, ?_, ?_, ?_⟩
  · rw [← underway.policy]
    rcases manages with same | ⟨_, acknowledged⟩
    · rw [same]
    · rw [acknowledged]
      rfl
  · rw [stored]
    exact underway.foreign
  · intro other within
    exact progress_congr (underway.progress other within) (by rw [stored]) (known other within)
  · intro other version exchanged
    rw [stored]
    rcases exchanges with same | ⟨answer, added⟩
    · exact underway.uploads other version (same ▸ exchanged)
    · rw [added] at exchanged
      rcases List.mem_append.mp exchanged with earlier | new
      · exact underway.uploads other version earlier
      · cases List.mem_singleton.mp new

/-- Noting an exchange that uploads nothing. -/
private theorem note (underway : Underway manager remote objects session)
    {world : MockRemote} (same : world.remote = session.world.remote) {exchange : Exchange}
    (silent : ∀ other version, exchange ≠ .pushed other (.ok version)) :
    Underway manager remote objects ({ session with world }.note exchange) where
  policy := underway.policy
  foreign := by
    intro objectId isForeign
    rw [← underway.foreign objectId isForeign, ← same]
    rfl
  progress := by
    intro other within
    apply progress_congr (underway.progress other within)
    · rw [← same]
      rfl
    · rfl
  uploads := by
    intro other version exchanged
    rcases List.mem_append.mp exchanged with earlier | new
    · rcases underway.uploads other version earlier with ⟨within, uploadable, stored⟩
      exact ⟨within, uploadable, by rw [← stored, ← same]; rfl⟩
    · exact absurd (List.mem_singleton.mp new).symm (silent other version)

theorem start (session : Session MockRemote) (objects : List SyncObject)
    (none : session.exchanges = []) :
    Underway session.manager session.world.remote objects session where
  policy := rfl
  foreign _ _ := rfl
  progress _ _ := .waiting rfl rfl
  uploads := by simp [none]

/-- Where a run stands when it ends, by returning or by raising. -/
theorem sync (distinct : (objects.map SyncObject.objectId).Nodup)
    (none : session.exchanges = []) :
    Underway session.manager session.world.remote objects
      (leaves (mockTransport.sync objects) session) := by
  have underway := start session objects none
  unfold leaves SyncTransport.sync
  rw [bind_apply]
  rcases SyncTransport.listVersions_cases session with
    ⟨world, same, asked⟩ | ⟨error, world, same, asked⟩
  · rw [asked]
    have noted : Underway session.manager session.world.remote objects
        ({ session with world }.note (.listed (.ok session.world.remote.listVersions))) :=
      underway.note same (by simp)
    have keeps : Preserves (Underway session.manager session.world.remote objects) (do
        let handled ←
          objects.mapM (mockTransport.syncOne session.world.remote.listVersions)
        let fetched ← mockTransport.pullNew objects session.world.remote.listVersions
        return SyncReport.of (handled ++ fetched)) := by
      apply (Preserves.mapM_of_mem fun object member => syncOne distinct member).bind
      intro handled
      apply Preserves.bind
      · exact (Preserves.mapM (fun entry => pullOne entry) _).bind fun _ => .pure _
      · exact fun _ => .pure _
    exact keeps _ noted
  · rw [asked]
    have noted : Underway session.manager session.world.remote objects
        ({ session with world }.note (.listed (.error error))) :=
      underway.note same (by simp)
    cases error with
    | network text => exact noted
    | other text => exact noted

end Underway

/-- What the objects of an uninterrupted run come to. -/
structure Uploaded (listing : Listing) (objects : List SyncObject)
    (session : Session MockRemote) (results : List SyncResult)
    (after : Session MockRemote) : Prop where
  faultless : after.world.faults = []
  policy : after.manager.policy = session.manager.policy
  stored : ∀ objectId ∉ objects.map SyncObject.objectId,
    after.world.remote.get objectId = session.world.remote.get objectId
  known : ∀ objectId ∉ objects.map SyncObject.objectId,
    after.manager.acknowledged.get objectId = session.manager.acknowledged.get objectId
  pushed : ∀ object ∈ objects, session.manager.Pushes object listing →
    after.world.remote.get object.objectId = some object
  reported : ∀ object ∈ objects, session.manager.decision object listing = .agree →
    SyncManager.record object .inSync "versions match" ∈ results
  exchanged : ∀ object answer, Exchange.pushed object answer ∈ after.exchanges →
    Exchange.pushed object answer ∈ session.exchanges ∨
      object ∈ objects ∧ session.manager.Pushes object listing

namespace Uploaded

variable {listing : Listing} {objects : List SyncObject} {object : SyncObject}
  {session between after : Session MockRemote} {result : SyncResult}
  {results : List SyncResult}

/-- The objects of a list are handled one after the other. -/
private theorem cons (distinct : ((object :: objects).map SyncObject.objectId).Nodup)
    (first : Uploaded listing [object] session [result] between)
    (later : Uploaded listing objects between results after) :
    Uploaded listing (object :: objects) session (result :: results) after := by
  have fresh : object.objectId ∉ objects.map SyncObject.objectId :=
    (List.nodup_cons.mp distinct).1
  have decided : ∀ other ∈ objects, between.manager.decision other listing =
      session.manager.decision other listing := by
    intro other within
    apply SyncManager.decision_congr first.policy (first.known _ ?_) rfl
    intro same
    exact fresh (List.mem_singleton.mp same ▸ List.mem_map_of_mem within)
  refine ⟨later.faultless, later.policy.trans first.policy, ?_, ?_, ?_, ?_, ?_⟩
  · intro objectId isForeign
    rw [List.map_cons, List.mem_cons, not_or] at isForeign
    rw [later.stored objectId isForeign.2, first.stored objectId (by simpa using isForeign.1)]
  · intro objectId isForeign
    rw [List.map_cons, List.mem_cons, not_or] at isForeign
    rw [later.known objectId isForeign.2, first.known objectId (by simpa using isForeign.1)]
  · intro other within pushes
    rcases List.mem_cons.mp within with rfl | within
    · rw [later.stored _ fresh]
      exact first.pushed other List.mem_cons_self pushes
    · unfold SyncManager.Pushes at pushes
      rw [← decided other within] at pushes
      exact later.pushed other within pushes
  · intro other within agrees
    rcases List.mem_cons.mp within with rfl | within
    · have here := first.reported other List.mem_cons_self agrees
      exact List.mem_singleton.mp here ▸ List.mem_cons_self
    · exact List.mem_cons_of_mem _ (later.reported other within (decided other within ▸ agrees))
  · intro other answer exchanged
    rcases later.exchanged other answer exchanged with earlier | ⟨within, pushes⟩
    · rcases first.exchanged other answer earlier with before | ⟨here, pushes⟩
      · exact .inl before
      · exact .inr ⟨List.mem_singleton.mp here ▸ List.mem_cons_self, pushes⟩
    · unfold SyncManager.Pushes at pushes ⊢
      rw [decided other within] at pushes
      exact .inr ⟨List.mem_cons_of_mem _ within, pushes⟩

/-- An object that is only reported. -/
private theorem passed (faultless : session.world.faults = [])
    (pushless : ¬ session.manager.Pushes object listing)
    (disagrees : session.manager.decision object listing ≠ .agree) :
    Uploaded listing [object] session [result] session where
  faultless := faultless
  policy := rfl
  stored _ _ := rfl
  known _ _ := rfl
  pushed other within pushes := by
    cases List.mem_singleton.mp within
    exact absurd pushes pushless
  reported other within agrees := by
    cases List.mem_singleton.mp within
    exact absurd agrees disagrees
  exchanged _ _ exchanged := .inl exchanged

/-- `_sync_one` without faults. -/
private theorem syncOne (faultless : session.world.faults = []) (listing : Listing)
    (object : SyncObject) :
    ∃ result after, mockTransport.syncOne listing object session = .ok result after ∧
      Uploaded listing [object] session [result] after := by
  cases decided : session.manager.decision object listing with
  | skip detail =>
      refine ⟨_, session, SyncTransport.syncOne_of_skip decided, passed faultless ?_ ?_⟩
      · rintro ⟨other, pushes⟩
        rw [decided] at pushes
        cases pushes
      · simp [decided]
  | conflict detail =>
      refine ⟨_, session, SyncTransport.syncOne_of_conflict decided, passed faultless ?_ ?_⟩
      · rintro ⟨other, pushes⟩
        rw [decided] at pushes
        cases pushes
      · simp [decided]
  | agree =>
      refine ⟨_, _, SyncTransport.syncOne_of_agree decided, faultless, rfl, fun _ _ => rfl,
        ?_, ?_, ?_, ?_⟩
      · intro objectId isForeign
        exact Underway.acknowledged_of_ne (by simpa using isForeign)
      · intro other within pushes
        cases List.mem_singleton.mp within
        exact absurd pushes (SyncManager.not_pushes_of_agree decided)
      · intro other within _
        cases List.mem_singleton.mp within
        exact List.mem_singleton.mpr rfl
      · intro other answer exchanged
        rcases List.mem_append.mp exchanged with earlier | new
        · exact .inl earlier
        · cases List.mem_singleton.mp new
  | push detail =>
      rw [SyncTransport.syncOne_of_push decided]
      refine ⟨_, _, SyncTransport.pushObject_of_faultless faultless object detail, rfl, rfl,
        ?_, ?_, ?_, ?_, ?_⟩
      · intro objectId isForeign
        exact Underway.get_push_of_ne _ (by simpa using isForeign)
      · intro objectId isForeign
        exact Underway.acknowledged_of_ne (by simpa using isForeign)
      · intro other within _
        cases List.mem_singleton.mp within
        exact Underway.get_push _
      · intro other within agrees
        cases List.mem_singleton.mp within
        rw [decided] at agrees
        cases agrees
      · intro other answer exchanged
        rcases List.mem_append.mp exchanged with earlier | new
        · exact .inl earlier
        · cases List.mem_singleton.mp new
          exact .inr ⟨List.mem_singleton.mpr rfl, detail, decided⟩

/-- All the objects of a run without faults. -/
private theorem mapM_syncOne (listing : Listing) (faultless : session.world.faults = [])
    (distinct : (objects.map SyncObject.objectId).Nodup) :
    ∃ results after, objects.mapM (mockTransport.syncOne listing) session =
      .ok results after ∧ Uploaded listing objects session results after := by
  induction objects generalizing session with
  | nil =>
      refine ⟨[], session, rfl, faultless, rfl, fun _ _ => rfl, fun _ _ => rfl, ?_, ?_,
        fun _ _ exchanged => .inl exchanged⟩
      · simp
      · simp
  | cons object rest induction =>
      rcases syncOne faultless listing object with ⟨result, between, returns, first⟩
      rcases induction first.faultless (List.nodup_cons.mp distinct).2 with
        ⟨results, after, returned, later⟩
      exact ⟨result :: results, after, mapM_cons_of_ok returns returned,
        first.cons distinct later⟩

end Uploaded

/-- An uninterrupted run from a manager and a remote side. -/
structure Completed (manager : SyncManager) (remote : Remote) (objects : List SyncObject)
    (report : SyncReport) (after : Session MockRemote) : Prop where
  underway : Underway manager remote objects after
  pushed : ∀ object ∈ objects, manager.Pushes object remote.listVersions →
    after.world.remote.get object.objectId = some object
  reported : ∀ object ∈ objects, manager.decision object remote.listVersions = .agree →
    SyncManager.record object .inSync "versions match" ∈ report.results
  exchanged : ∀ object answer, Exchange.pushed object answer ∈ after.exchanges →
    object ∈ objects ∧ manager.Pushes object remote.listVersions

/-- Going through the listing without faults. -/
private theorem pullNew_of_faultless {session : Session MockRemote}
    (faultless : session.world.faults = []) (objects : List SyncObject) (listing : Listing) :
    ∃ results after, mockTransport.pullNew objects listing session = .ok results after ∧
      after.world.remote = session.world.remote ∧
      ∀ object answer, Exchange.pushed object answer ∈ after.exchanges →
        Exchange.pushed object answer ∈ session.exchanges := by
  have each : ∀ entry ∈ Syncing.sorted listing, ∀ state : Session MockRemote,
      (state.world.faults = [] ∧ state.world.remote = session.world.remote ∧
        ∀ object answer, Exchange.pushed object answer ∈ state.exchanges →
          Exchange.pushed object answer ∈ session.exchanges) →
      ∃ result after, mockTransport.pullOne (objects.map SyncObject.objectId) entry state =
          .ok result after ∧ True ∧ after.world.faults = [] ∧
        after.world.remote = session.world.remote ∧
        ∀ object answer, Exchange.pushed object answer ∈ after.exchanges →
          Exchange.pushed object answer ∈ session.exchanges := by
    rintro entry _ state ⟨works, stored, exchanged⟩
    rcases SyncTransport.pullOne_of_faultless works (objects.map SyncObject.objectId) entry with
      ⟨result, after, returns, working⟩
    have left := SyncTransport.pullOne_leaves state (objects.map SyncObject.objectId) entry
    unfold leaves at left
    rw [returns] at left
    refine ⟨result, after, returns, trivial, working, left.1.trans stored, ?_⟩
    intro object answer member
    rcases left.2.2 with same | ⟨pulled, added⟩
    · exact exchanged object answer (same ▸ member)
    · rw [added] at member
      rcases List.mem_append.mp member with earlier | new
      · exact exchanged object answer earlier
      · cases List.mem_singleton.mp new
  rcases mapM_returns _ (fun _ _ => True) each ⟨faultless, rfl, fun _ _ member => member⟩ with
    ⟨results, after, returns, _, _, stored, exchanged⟩
  refine ⟨results.reduceOption, after, ?_, stored, exchanged⟩
  unfold SyncTransport.pullNew
  rw [bind_apply, returns]
  rfl

/-- Without faults a run returns, and is complete. -/
theorem sync_of_faultless {session : Session MockRemote} {objects : List SyncObject}
    (faultless : session.world.faults = [])
    (distinct : (objects.map SyncObject.objectId).Nodup) (none : session.exchanges = []) :
    ∃ report after, mockTransport.sync objects session = .ok report after ∧
      Completed session.manager session.world.remote objects report after := by
  have listed := SyncTransport.listVersions_of_faultless faultless
  have noPush : ∀ object answer, Exchange.pushed object answer ∉
      (session.note (.listed (.ok session.world.remote.listVersions))).exchanges := by
    simp [Session.note, none]
  have works : (session.note
      (.listed (.ok session.world.remote.listVersions))).world.faults = [] := faultless
  rcases Uploaded.mapM_syncOne session.world.remote.listVersions works distinct with
    ⟨results, between, handled, uploaded⟩
  rcases pullNew_of_faultless uploaded.faultless objects session.world.remote.listVersions with
    ⟨fetched, after, pulled, stored, exchanged⟩
  have returns : mockTransport.sync objects session =
      .ok (SyncReport.of (results ++ fetched)) after := by
    unfold SyncTransport.sync
    rw [bind_apply, listed]
    dsimp only
    rw [bind_apply, handled]
    dsimp only
    rw [bind_apply, pulled]
    rfl
  have underway := Underway.sync distinct none
  unfold leaves at underway
  rw [returns] at underway
  refine ⟨_, after, returns, underway, ?_, ?_, ?_⟩
  · intro object within pushes
    rw [stored]
    exact uploaded.pushed object within pushes
  · intro object within agrees
    exact List.mem_append_left _ (uploaded.reported object within agrees)
  · intro object answer member
    rcases uploaded.exchanged object answer (exchanged object answer member) with
      earlier | pushes
    · exact absurd earlier (noPush object answer)
    · exact pushes

namespace Completed

variable {manager : SyncManager} {remote : Remote} {objects : List SyncObject}
  {object : SyncObject} {report : SyncReport} {after : Session MockRemote}

/-- What was not to be pushed is left alone. -/
theorem get_of_not_pushes (completed : Completed manager remote objects report after)
    (within : object ∈ objects) (pushless : ¬ manager.Pushes object remote.listVersions) :
    after.world.remote.get object.objectId = remote.get object.objectId := by
  cases completed.underway.progress object within with
  | waiting stored known => exact stored
  | pushed pushes stored known => exact absurd pushes pushless
  | agreed agrees stored known => exact stored

/-- Nothing is left to be pushed. -/
theorem not_pushes (completed : Completed manager remote objects report after)
    (within : object ∈ objects) :
    ¬ after.manager.Pushes object after.world.remote.listVersions := by
  intro pushes
  have differs := SyncManager.listed_ne_of_pushes pushes
  rw [Remote.listVersions, Dict.get_map] at differs
  cases completed.underway.progress object within with
  | waiting stored known =>
      have same : after.manager.decision object after.world.remote.listVersions =
          manager.decision object remote.listVersions := by
        apply SyncManager.decision_congr completed.underway.policy known
        rw [Remote.listVersions, Remote.listVersions, Dict.get_map, Dict.get_map, stored]
      unfold SyncManager.Pushes at pushes
      rw [same] at pushes
      exact differs (by rw [completed.pushed object within pushes]; rfl)
  | pushed _ stored known => exact differs (by rw [stored]; rfl)
  | agreed agrees stored known =>
      have listed := (SyncManager.listed_of_agree agrees).2
      rw [Remote.listVersions, Dict.get_map] at listed
      exact differs (by rw [stored, listed])

end Completed

/-- An uninterrupted run leaves under the id of an object what it would have left from where
another run was broken off. -/
private theorem get_resumed {manager : SyncManager} {remote : Remote}
    {objects : List SyncObject} {object : SyncObject} {report resumed : SyncReport}
    {first once second : Session MockRemote} (within : object ∈ objects)
    (underway : Underway manager remote objects first)
    (completed : Completed manager remote objects report once)
    (continued : Completed first.manager first.world.remote objects resumed second) :
    second.world.remote.get object.objectId = once.world.remote.get object.objectId := by
  cases underway.progress object within with
  | waiting stored known =>
      have same : first.manager.decision object first.world.remote.listVersions =
          manager.decision object remote.listVersions := by
        apply SyncManager.decision_congr underway.policy known
        rw [Remote.listVersions, Remote.listVersions, Dict.get_map, Dict.get_map, stored]
      by_cases pushes : manager.Pushes object remote.listVersions
      · rw [completed.pushed object within pushes]
        apply continued.pushed object within
        unfold SyncManager.Pushes
        rwa [same]
      · rw [completed.get_of_not_pushes within pushes, ← stored]
        apply continued.get_of_not_pushes within
        unfold SyncManager.Pushes
        rwa [same]
  | pushed pushes stored known =>
      rcases pushes with ⟨detail, decided⟩
      have agrees : first.manager.decision object first.world.remote.listVersions =
          .agree := by
        apply SyncManager.agree_of_listed
        · rw [underway.policy]
          exact (SyncManager.listed_of_push decided).1
        · rw [Remote.listVersions, Dict.get_map, stored]
          rfl
      rw [completed.pushed object within ⟨detail, decided⟩, ← stored]
      exact continued.get_of_not_pushes within (SyncManager.not_pushes_of_agree agrees)
  | agreed agrees stored known =>
      have again : first.manager.decision object first.world.remote.listVersions =
          .agree := by
        have listed := SyncManager.listed_of_agree agrees
        apply SyncManager.agree_of_listed
        · rw [underway.policy]
          exact listed.1
        · rw [Remote.listVersions, Dict.get_map, stored, ← Dict.get_map]
          exact listed.2
      rw [completed.get_of_not_pushes within (SyncManager.not_pushes_of_agree agrees),
        ← stored]
      exact continued.get_of_not_pushes within (SyncManager.not_pushes_of_agree again)

/-- What the runs behind an interrupted one come to: `once` is one uninterrupted run in its
place. -/
structure Resumed (objects : List SyncObject) (first once second third : Session MockRemote)
    (resumed : SyncReport) : Prop where
  remote : ∀ objectId,
    second.world.remote.get objectId = once.world.remote.get objectId
  pushes : ∀ object answer, Exchange.pushed object answer ∈ second.exchanges →
    object ∈ objects ∧ first.manager.policy.canUpload object = true ∧
      first.world.remote.listVersions.get object.objectId ≠ some object.listing
  inSync : ∀ object version, Exchange.pushed object (.ok version) ∈ first.exchanges →
    SyncManager.record object .inSync "versions match" ∈ resumed.results
  idempotent : ∀ object answer, Exchange.pushed object answer ∉ third.exchanges

/-- A run that is broken off anywhere is resumed by the next run, and a third run pushes
nothing. -/
theorem sync_resumes {objects : List SyncObject}
    (distinct : (objects.map SyncObject.objectId).Nodup) (session : Session MockRemote) :
    let first := mockTransport.behind session (.sync objects)
    ∃ report once resumed second again third,
      mockTransport.serve session.restored (.sync objects) = .ok (.report report) once ∧
      mockTransport.serve first.restored (.sync objects) = .ok (.report resumed) second ∧
      mockTransport.serve second.restored (.sync objects) = .ok (.report again) third ∧
      Resumed objects first once second third resumed := by
  intro first
  have underway : Underway session.manager session.world.remote objects first := by
    have fresh : ({ session with exchanges := [] } : Session MockRemote).exchanges = [] := rfl
    have run := Underway.sync distinct fresh
    rwa [← SyncTransport.behind_sync] at run
  have uninterrupted : ∀ started : Session MockRemote, ∃ report after,
      mockTransport.serve started.restored (.sync objects) = .ok (.report report) after ∧
        Completed started.manager started.world.remote objects report after := by
    intro started
    have works : ({ started.restored with exchanges := [] } : Session MockRemote).world.faults =
        [] := rfl
    rcases sync_of_faultless works distinct rfl with ⟨report, after, returns, completed⟩
    exact ⟨report, after, SyncTransport.serve_sync_of_ok returns, completed⟩
  rcases uninterrupted session with ⟨report, once, ran, completed⟩
  rcases uninterrupted first with ⟨resumed, second, continues, continued⟩
  rcases uninterrupted second with ⟨again, third, repeats, repeated⟩
  refine ⟨report, once, resumed, second, again, third, ran, continues, repeats, ?_, ?_, ?_, ?_⟩
  · intro objectId
    by_cases foreign : objectId ∈ objects.map SyncObject.objectId
    · rcases List.mem_map.mp foreign with ⟨object, within, rfl⟩
      exact get_resumed within underway completed continued
    · rw [completed.underway.foreign objectId foreign,
        continued.underway.foreign objectId foreign, underway.foreign objectId foreign]
  · intro object answer exchanged
    rcases continued.exchanged object answer exchanged with ⟨within, detail, decided⟩
    exact ⟨within, (SyncManager.listed_of_push decided).1,
      SyncManager.listed_ne_of_pushes ⟨detail, decided⟩⟩
  · intro object version exchanged
    rcases underway.uploads object version exchanged with ⟨within, uploadable, stored⟩
    apply continued.reported object within
    apply SyncManager.agree_of_listed
    · rw [underway.policy]
      exact uploadable
    · rw [Remote.listVersions, Dict.get_map, stored]
      rfl
  · intro object answer exchanged
    rcases repeated.exchanged object answer exchanged with ⟨within, pushes⟩
    exact continued.not_pushes within pushes

/-- Two new tasks, and a network that dies before the second is pushed. -/
def diesMidSync : Session MockRemote where
  manager := {}
  world :=
    { remote := Dict.empty
      faults := [none, none, some { error := .network "mock network died mid-sync" }] }

theorem diesMidSync_resumes :
    let tasks : List SyncObject :=
      [{ objectId := "a", objectType := "task", version := "v1", contentHash := "1" },
        { objectId := "b", objectType := "task", version := "v1", contentHash := "2" }]
    let first := mockTransport.behind diesMidSync (.sync tasks)
    ∃ report once resumed second again third,
      mockTransport.serve diesMidSync.restored (.sync tasks) = .ok (.report report) once ∧
      mockTransport.serve first.restored (.sync tasks) = .ok (.report resumed) second ∧
      mockTransport.serve second.restored (.sync tasks) = .ok (.report again) third ∧
      Resumed tasks first once second third resumed :=
  sync_resumes (by decide) diesMidSync

end Raphael.Cloud
