import Mathlib.Data.Fintype.Basic
import Raphael.Cloud.SyncRuns

/-! # Silent overwrites

One manager, and a remote side that others change between its runs. An overwrite is
explicit when the manager has acknowledged exactly what it overwrites, the content as
well as the version. -/

namespace Raphael.Cloud

open Foundation

/-- The object was pushed over what had been acknowledged exactly, or the divergence
was reported and the remote side was left alone. -/
structure Handling.Explicit {Device : Type u} (handling : Handling Device) : Prop where
  acknowledged : ∀ remote, handling.before = some remote → handling.state = .uploaded →
    handling.known = some remote.listing
  reported : ∀ remote, handling.before = some remote →
    remote.listing ≠ handling.object.listing → handling.known ≠ some remote.listing →
    handling.after = handling.before ∧
      (handling.uploadable = true → handling.state = .conflict)

namespace Syncing

def entry {Device : Type u} (state : Syncing Device) (objectId : String) : Option Version :=
  state.remote.listVersions.get objectId

/-- An object that is listed as it is itself still has the listed entry; and where the
entry listed under the version that was acknowledged last is still there, it has the hash
that was acknowledged as well. -/
def Lists (state : Syncing Unit) (object : SyncObject) (version : Version) : Prop :=
  if version = object.listing then state.entry object.objectId = some version
  else state.entry object.objectId = some version →
    (state.manager ()).acknowledged.get object.objectId = some version.1 →
    state.known () object.objectId = some version

instance (state : Syncing Unit) (object : SyncObject) (version : Version) :
    Decidable (state.Lists object version) := by
  unfold Lists
  infer_instance

/-- The listing tells the content of the next object that may be uploaded. -/
def ListsContent (state : Syncing Unit) : SyncAction Unit → Prop
  | .advance () _ =>
      ∀ next ∈ (state.phase ()).next, (state.manager ()).policy.canUpload next.1 = true →
        ∀ version ∈ next.2.get next.1.objectId, state.Lists next.1 version
  | _ => True

instance (state : Syncing Unit) :
    (action : SyncAction Unit) → Decidable (state.ListsContent action)
  | .advance () _ =>
      inferInstanceAs (Decidable (∀ next ∈ (state.phase ()).next,
        (state.manager ()).policy.canUpload next.1 = true →
          ∀ version ∈ next.2.get next.1.objectId, state.Lists next.1 version))
  | .sync _ _ | .change _ => .isTrue trivial

theorem ListsContent.of_next {state : Syncing Unit} {failure : Option TransportError}
    (lists : state.ListsContent (.advance () failure)) {objects rest : List SyncObject}
    {object : SyncObject} {listing : Listing} {results : List SyncResult} {version : Version}
    (current : state.phase () = .syncing objects (object :: rest) listing results)
    (uploadable : (state.manager ()).policy.canUpload object = true)
    (listed : listing.get object.objectId = some version) : state.Lists object version := by
  apply lists (object, listing)
  · rw [current]
    rfl
  · exact uploadable
  · exact listed

/-- During a run every remote entry is the listed one, or the one acknowledged last. -/
structure Accounted (state : Syncing Unit) : Prop where
  recorded : state.Recorded
  entries : ∀ listing, (state.phase ()).listed = some listing → ∀ objectId,
    state.entry objectId = listing.get objectId ∨
      state.entry objectId = state.known () objectId
  log : ∀ handling ∈ state.log, handling.Explicit

theorem accounted_start (policy : Unit → SyncPolicy) (remote : Remote) :
    (start policy remote).Accounted where
  recorded := recorded_start policy remote
  entries := by simp [start, SyncPhase.listed]
  log := by simp [start]

/-- An entry that was not acknowledged exactly is the listed one. -/
private theorem Accounted.listed {state : Syncing Unit} (accounted : state.Accounted)
    {listing : Listing} (current : (state.phase ()).listed = some listing)
    {objectId : String} {remote : SyncObject}
    (present : state.remote.get objectId = some remote)
    (unknown : state.known () objectId ≠ some remote.listing) :
    state.entry objectId = some remote.listing ∧
      listing.get objectId = some remote.listing := by
  have entry : state.entry objectId = some remote.listing := by
    simp [Syncing.entry, Remote.listVersions, present]
  rcases accounted.entries listing current objectId with same | same
  · exact ⟨entry, same ▸ entry⟩
  · exact absurd (same ▸ entry) unknown

theorem entry_push {Device : Type u} (state : Syncing Device) (object : SyncObject)
    (objectId : String) :
    (state.remote.push object).listVersions.get objectId =
      if objectId = object.objectId then some object.listing else state.entry objectId := by
  simp only [Syncing.entry, Remote.listVersions, Remote.push, Dict.get_map, Dict.get_set]
  split <;> rfl

/-- What is about to be pushed was acknowledged exactly, where it stands over an
entry. -/
private theorem Accounted.known_of_push {state : Syncing Unit} (accounted : state.Accounted)
    {objects rest : List SyncObject} {object : SyncObject} {listing : Listing}
    {results : List SyncResult} {failure : Option TransportError}
    (current : state.phase () = .syncing objects (object :: rest) listing results)
    (lists : state.ListsContent (.advance () failure))
    (uploadable : (state.manager ()).policy.canUpload object = true)
    {remote : SyncObject} (present : state.remote.get object.objectId = some remote)
    (differs : listing.get object.objectId = some remote.listing →
      remote.listing ≠ object.listing ∧
        (state.manager ()).acknowledged.get object.objectId = some remote.listing.1) :
    state.known () object.objectId = some remote.listing := by
  by_contra unknown
  rcases accounted.listed (by rw [current]; rfl) present unknown with ⟨entry, listed⟩
  rcases differs listed with ⟨other, acknowledged⟩
  have lists := lists.of_next current uploadable listed
  unfold Lists at lists
  rw [if_neg other] at lists
  exact unknown (lists entry acknowledged)

/-- An object that is not pushed over an entry differing from it, and not acknowledged
exactly, is in conflict. -/
private theorem Accounted.conflict_of_differs {state : Syncing Unit}
    (accounted : state.Accounted)
    {objects rest : List SyncObject} {object : SyncObject} {listing : Listing}
    {results : List SyncResult} {failure : Option TransportError}
    (current : state.phase () = .syncing objects (object :: rest) listing results)
    (lists : state.ListsContent (.advance () failure))
    (uploadable : (state.manager ()).policy.canUpload object = true)
    {remote : SyncObject} (present : state.remote.get object.objectId = some remote)
    (differs : remote.listing ≠ object.listing)
    (unknown : state.known () object.objectId ≠ some remote.listing) :
    ∃ detail, (state.manager ()).decision object listing = .conflict detail := by
  rcases accounted.listed (by rw [current]; rfl) present unknown with ⟨_, listed⟩
  have unacknowledged :
      (state.manager ()).acknowledged.get object.objectId ≠ some remote.listing.1 :=
    fun acknowledged => unknown (accounted.known_of_push current lists uploadable present
      fun _ => ⟨differs, acknowledged⟩)
  rw [SyncManager.decision_of_uploadable uploadable, listed]
  simp only [if_neg differs, if_neg unacknowledged]
  exact ⟨_, rfl⟩

private theorem Accounted.syncNext {state : Syncing Unit} (accounted : state.Accounted)
    {objects rest : List SyncObject} {object : SyncObject} {listing : Listing}
    {results : List SyncResult} {failure : Option TransportError}
    (current : state.phase () = .syncing objects (object :: rest) listing results)
    (lists : state.ListsContent (.advance () failure))
    {after : Syncing Unit} (recorded : after.Recorded)
    (same : after = state.syncNext () objects object rest listing results failure) :
    after.Accounted := by
  have entries := accounted.entries listing (by rw [current]; rfl)
  have append : ∀ handling : Handling Unit, handling.Explicit →
      ∀ other ∈ state.log ++ [handling], other.Explicit :=
    fun _ explicit => List.forall_mem_append.mpr
      ⟨accounted.log, List.forall_mem_singleton.mpr explicit⟩
  rcases syncNext_cases state () objects object rest listing results failure with
    ⟨raised, raises⟩ | ⟨result, pushless, conflict, _, reports⟩ |
    ⟨result, agrees, inSync, agreed⟩ | ⟨detail, result, pushes, _, uploaded, pushed⟩
  · rw [raises] at same
    subst same
    exact ⟨recorded, by simp [moveTo, SyncPhase.listed], accounted.log⟩
  · rw [reports] at same
    subst same
    refine ⟨recorded, ?_, append _ ⟨?_, ?_⟩⟩
    · rintro versions listed objectId
      cases Option.some.inj (by simpa [moveTo, SyncPhase.listed] using listed)
      exact entries objectId
    · exact fun _ _ uploaded => absurd uploaded pushless
    · exact fun remote present differs unknown => ⟨rfl, fun uploadable =>
        conflict (accounted.conflict_of_differs current lists uploadable present differs
          unknown)⟩
  · rw [agreed] at same
    subst same
    rcases SyncManager.listed_of_agree agrees with ⟨uploadable, listed⟩
    have entry := lists.of_next current uploadable listed
    unfold Lists at entry
    rw [if_pos rfl] at entry
    refine ⟨recorded, ?_, append _ ⟨?_, ?_⟩⟩
    · rintro versions found objectId
      cases Option.some.inj (by simpa [moveTo, SyncPhase.listed] using found)
      by_cases own : objectId = object.objectId
      · subst own
        exact .inl (entry.trans listed.symm)
      · rcases entries objectId with asListed | known
        · exact .inl asListed
        · exact .inr (known.trans (by simp [moveTo, note, Function.update_of_ne own]))
    · exact fun _ _ uploaded => by simp [handling, inSync] at uploaded
    · intro remote present differs
      have same : some remote.listing = some object.listing := by
        rw [← entry]
        simp [Syncing.entry, Remote.listVersions, show state.remote.get _ = _ from present]
      exact absurd (Option.some.inj same) differs
  · rw [pushed] at same
    subst same
    rcases SyncManager.listed_of_push pushes with ⟨uploadable, acknowledged⟩
    have known : ∀ remote, state.remote.get object.objectId = some remote →
        state.known () object.objectId = some remote.listing :=
      fun remote present => accounted.known_of_push current lists uploadable present
        (acknowledged _)
    refine ⟨recorded, ?_, append _ ⟨?_, ?_⟩⟩
    · rintro versions found objectId
      cases Option.some.inj (by simpa [moveTo, SyncPhase.listed] using found)
      have written := entry_push state object objectId
      by_cases own : objectId = object.objectId
      · rw [if_pos own] at written
        exact .inr (written.trans (by simp [moveTo, store, note, own]))
      · rw [if_neg own] at written
        rcases entries objectId with asListed | before
        · exact .inl (written.trans asListed)
        · exact .inr (written.trans
            (before.trans (by simp [moveTo, store, note, Function.update_of_ne own])))
    · exact fun remote present _ => known remote present
    · exact fun remote present _ unknown => absurd (known remote present) unknown

/-- One step keeps the remote entries accounted for, where the listing tells the
content. -/
theorem Accounted.step {before after : Syncing Unit} {action : SyncAction Unit}
    (accounted : before.Accounted) (lists : before.ListsContent action)
    (stepped : Syncing.step before action = some after) : after.Accounted := by
  have recorded := accounted.recorded.step stepped
  cases action with
  | sync device objects =>
      simp only [Syncing.step] at stepped
      split at stepped
      · cases stepped
        exact ⟨recorded, by simp [moveTo, SyncPhase.listed], accounted.log⟩
      · cases stepped
        exact accounted
  | change remote =>
      simp only [Syncing.step] at stepped
      split at stepped
      · next idle =>
          cases stepped
          refine ⟨recorded, ?_, accounted.log⟩
          simp [SyncPhase.listed_of_isIdle (idle ())]
      · cases stepped
  | advance device failure =>
      rcases advance_cases stepped with ⟨objects, _, rfl⟩ |
        ⟨objects, object, rest, listing, results, current, same⟩ |
        ⟨seen, phase, done, rfl | ⟨objectId, version, rfl⟩⟩
      · refine ⟨recorded, ?_, accounted.log⟩
        intro listing listed objectId
        cases Option.some.inj (by simpa [moveTo, SyncPhase.listed] using listed)
        exact .inl rfl
      · exact accounted.syncNext current lists recorded same
      · exact ⟨recorded, by simp [moveTo, done], accounted.log⟩
      · exact ⟨recorded, by simp [moveTo, done], accounted.log⟩

/-- In every run whose listings tell the content of what was acknowledged, every push
over an entry was acknowledged exactly and every other divergence is reported. -/
theorem explicit_of_listsContent {policy : Unit → SyncPolicy} {remote : Remote}
    {actions : List (SyncAction Unit)} {final : Syncing Unit}
    (lists : StepFunction.Meets step ListsContent (start policy remote) actions)
    (reached : StepFunction.run step (start policy remote) actions = some final) :
    ∀ handling ∈ final.log, handling.Explicit :=
  (StepFunction.invariant_of_meets
    (fun _ _ _ accounted lists stepped => Accounted.step accounted lists stepped)
    (accounted_start policy remote) lists reached).log

/-- One task in its version "v1". -/
def taskRemote (contentHash : String) : Remote :=
  Dict.empty.set "task"
    { objectId := "task", objectType := "task", version := "v1", contentHash }

def localTask (version contentHash : String) : SyncObject where
  objectId := "task"
  objectType := "task"
  version := version
  contentHash := contentHash

/-- A run over one object and one entry of the remote side. -/
def wholeSync (object : SyncObject) : List (SyncAction Unit) :=
  [.sync () [object], .advance () none, .advance () none, .advance () none,
    .advance () none, .advance () none]

/-- Between two runs another device changes the content and keeps the version. -/
def sameVersion : List (SyncAction Unit) :=
  wholeSync (localTask "v1" "agreed") ++ [.change (taskRemote "theirs")] ++
    wholeSync (localTask "v2" "ours")

theorem sameVersion_overwrites :
    ∃ final,
      StepFunction.run step (start (fun _ => {}) (taskRemote "agreed")) sameVersion =
        some final ∧
      ∃ handling ∈ final.log, handling.state = .uploaded ∧
        handling.before.map SyncObject.listing = some ("v1", "theirs") ∧
        handling.known = some ("v1", "agreed") ∧
        handling.after.map SyncObject.listing = some ("v2", "ours") ∧
        ¬ handling.Explicit := by
  refine ⟨_, rfl, _, .tail _ (.head _), rfl, rfl, rfl, rfl, ?_⟩
  intro explicit
  exact absurd (explicit.acknowledged _ rfl rfl) (by decide)

/-- The other device gives its content a version of its own. -/
def otherVersion : List (SyncAction Unit) :=
  wholeSync (localTask "v1" "agreed") ++
    [.change (Dict.empty.set "task" (localTask "v1'" "theirs"))] ++
    wholeSync (localTask "v2" "ours")

theorem explicit_of_otherVersion :
    ∃ final,
      StepFunction.run step (start (fun _ => {}) (taskRemote "agreed")) otherVersion =
        some final ∧
      ∀ handling ∈ final.log, handling.Explicit :=
  ⟨_, rfl, @explicit_of_listsContent (fun _ => {}) (taskRemote "agreed") otherVersion _
    (by decide +kernel) rfl⟩

end Syncing

end Raphael.Cloud
