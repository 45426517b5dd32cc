import Mathlib.Data.Fintype.Basic
import Raphael.Cloud.SyncRuns

/-! # Managers against each other

Several managers sync over one transport, and their calls interleave. A manager goes
by the listing it fetched at the beginning of its run. -/

namespace Raphael.Cloud

open Foundation

variable {Device : Type u}

/-- A push over what another manager had pushed was made in knowledge of its version. -/
def Handling.Informed (handling : Handling Device) : Prop :=
  ∀ remote other, handling.before = some remote → handling.owner = some other →
    other ≠ handling.device → handling.state = .uploaded →
    handling.known.map Prod.fst = some remote.version ∨
      (handling.object.objectId, remote.version) ∈ handling.pulled

namespace Syncing

/-- The next object may be uploaded, and its id is not listed, or listed otherwise with
the version acknowledged last. -/
def PushesNext (manager : SyncManager) (next : SyncObject × Listing) : Prop :=
  manager.policy.canUpload next.1 = true ∧
    ∀ version ∈ next.2.get next.1.objectId, version ≠ next.1.listing ∧
      manager.acknowledged.get next.1.objectId = some version.1

instance (manager : SyncManager) (next : SyncObject × Listing) :
    Decidable (PushesNext manager next) :=
  inferInstanceAs (Decidable (_ ∧ ∀ version ∈ next.2.get next.1.objectId, _))

/-- An object that is to be pushed was pushed by no other manager since the listing was
fetched. -/
def ListingFresh (state : Syncing Device) : SyncAction Device → Prop
  | .advance device none =>
      ∀ next ∈ (state.phase device).next, PushesNext (state.manager device) next →
        state.stale device next.1.objectId = false
  | _ => True

instance (state : Syncing Device) :
    (action : SyncAction Device) → Decidable (state.ListingFresh action)
  | .advance device none =>
      inferInstanceAs (Decidable (∀ next ∈ (state.phase device).next,
        PushesNext (state.manager device) next → state.stale device next.1.objectId = false))
  | .advance _ (some _) | .sync _ _ | .change _ => .isTrue trivial

/-- During a run of a manager, an entry that no other one has pushed since is the
listed one or its own. -/
structure Tracked (state : Syncing Device) : Prop where
  recorded : state.Recorded
  entries : ∀ device listing, (state.phase device).listed = some listing → ∀ objectId,
    state.stale device objectId = false →
    state.remote.listVersions.get objectId = listing.get objectId ∨
      state.owner objectId = some device
  log : ∀ handling ∈ state.log, handling.Informed

theorem tracked_start (policy : Device → SyncPolicy) (remote : Remote) :
    (start policy remote).Tracked where
  recorded := recorded_start policy remote
  entries := by simp [start, SyncPhase.listed]
  log := by simp [start]

/-- A fresh push over the object of another manager knows its version. -/
private theorem Tracked.informed {state : Syncing Device} (tracked : state.Tracked)
    {device : Device} {objects rest : List SyncObject} {object : SyncObject}
    {listing : Listing} {results : List SyncResult} {detail : String}
    (current : state.phase device = .syncing objects (object :: rest) listing results)
    (fresh : state.ListingFresh (.advance device none))
    (pushes : (state.manager device).decision object listing = .push detail)
    (result : SyncResult) (remote : Remote) :
    (state.handling device object result remote).Informed := by
  intro entry other present owned differs _
  rcases SyncManager.listed_of_push pushes with ⟨uploadable, acknowledged⟩
  have unpushed : state.stale device object.objectId = false := by
    apply fresh (object, listing)
    · rw [current]
      rfl
    · exact ⟨uploadable, acknowledged⟩
  have owner : state.owner object.objectId = some other := owned
  have stored : state.remote.get object.objectId = some entry := present
  rcases tracked.entries device listing (by rw [current]; rfl) object.objectId unpushed
    with asListed | own
  · have listed : listing.get object.objectId = some entry.listing := by
      rw [← asListed]
      simp [Remote.listVersions, stored]
    exact .inl ((tracked.recorded device object.objectId).trans
      (acknowledged entry.listing listed).2)
  · rw [owner] at own
    exact absurd (Option.some.inj own) differs

variable [DecidableEq Device]

/-- A step of a manager that keeps the remote side, who pushed and what is old. -/
private theorem Tracked.keep {before after : Syncing Device} {device : Device}
    {phase : SyncPhase} (tracked : before.Tracked) (recorded : after.Recorded)
    (moved : after.phase = Function.update before.phase device phase)
    (remote : after.remote = before.remote) (owner : after.owner = before.owner)
    (stale : after.stale = before.stale)
    (listed : ∀ listing, phase.listed = some listing →
      (before.phase device).listed = some listing)
    (log : ∀ handling ∈ after.log, handling.Informed) : after.Tracked := by
  refine ⟨recorded, ?_, log⟩
  intro other listing found objectId fresh
  rw [moved] at found
  rw [stale] at fresh
  rw [remote, owner]
  by_cases same : other = device
  · subst same
    rw [Function.update_self] at found
    exact tracked.entries other listing (listed listing found) objectId fresh
  · rw [Function.update_of_ne same] at found
    exact tracked.entries other listing found objectId fresh

private theorem Tracked.syncNext {state after : Syncing Device} (tracked : state.Tracked)
    {device : Device} {objects rest : List SyncObject} {object : SyncObject}
    {listing : Listing} {results : List SyncResult} {failure : Option TransportError}
    (current : state.phase device = .syncing objects (object :: rest) listing results)
    (fresh : state.ListingFresh (.advance device failure)) (recorded : after.Recorded)
    (same : after = state.syncNext device objects object rest listing results failure) :
    after.Tracked := by
  have append : ∀ handling : Handling Device, handling.Informed →
      ∀ other ∈ state.log ++ [handling], other.Informed :=
    fun _ informed => List.forall_mem_append.mpr
      ⟨tracked.log, List.forall_mem_singleton.mpr informed⟩
  have listed : (state.phase device).listed = some listing := by rw [current]; rfl
  rcases syncNext_cases state device objects object rest listing results failure with
    ⟨raised, raises⟩ | ⟨result, pushless, _, _, reports⟩ |
    ⟨result, _, inSync, agreed⟩ | ⟨detail, result, pushes, rfl, _, pushed⟩
  · rw [raises] at same
    subst same
    exact tracked.keep recorded rfl rfl rfl rfl (by simp [SyncPhase.listed]) tracked.log
  · rw [reports] at same
    subst same
    apply tracked.keep recorded rfl rfl rfl rfl (fun _ found => listed.trans found)
    exact append _ fun _ _ _ _ _ uploaded => absurd uploaded pushless
  · rw [agreed] at same
    subst same
    apply tracked.keep recorded rfl rfl rfl rfl (fun _ found => listed.trans found)
    exact append _ fun _ _ _ _ _ uploaded => by simp [handling, inSync] at uploaded
  · rw [pushed] at same
    subst same
    refine ⟨recorded, ?_, append _ (tracked.informed current fresh pushes _ _)⟩
    intro other versions found objectId unpushed
    by_cases written : objectId = object.objectId
    · subst written
      -- The push made the listing of every other manager old.
      have own : other = device := by
        by_contra differs
        simp [moveTo, store, note, differs] at unpushed
      exact .inr (by simp [moveTo, store, note, own])
    · have before : state.stale other objectId = false := by
        simpa [moveTo, store, note, written] using unpushed
      have listedBefore : (state.phase other).listed = some versions := by
        by_cases own : other = device
        · subst own
          exact listed.trans (by simpa [moveTo, SyncPhase.listed] using found)
        · simpa [moveTo, store, note, Function.update_of_ne own] using found
      rcases tracked.entries other versions listedBefore objectId before with asListed | mine
      · exact .inl (by
          simpa [moveTo, store, note, Remote.listVersions, Remote.push, Dict.get_set, written]
            using asListed)
      · exact .inr (by simpa [moveTo, store, note, Function.update_of_ne written] using mine)

/-- One step keeps the entries tracked, where the listings are fresh. -/
theorem Tracked.step [Fintype Device] {before after : Syncing Device}
    {action : SyncAction Device} (tracked : before.Tracked)
    (fresh : before.ListingFresh action)
    (stepped : Syncing.step before action = some after) : after.Tracked := by
  have recorded := tracked.recorded.step stepped
  cases action with
  | sync device objects =>
      simp only [Syncing.step] at stepped
      split at stepped
      · cases stepped
        exact tracked.keep recorded rfl rfl rfl rfl (by simp [SyncPhase.listed]) tracked.log
      · cases stepped
        exact tracked
  | change remote =>
      simp only [Syncing.step] at stepped
      split at stepped
      · next idle =>
          cases stepped
          refine ⟨recorded, ?_, tracked.log⟩
          simp [SyncPhase.listed_of_isIdle (idle _)]
      · cases stepped
  | advance device failure =>
      rcases advance_cases stepped with ⟨objects, _, rfl⟩ |
        ⟨objects, object, rest, listing, results, current, same⟩ |
        ⟨seen, phase, done, rfl | ⟨objectId, version, rfl⟩⟩
      · refine ⟨recorded, ?_, tracked.log⟩
        intro other listing listed objectId unpushed
        by_cases own : other = device
        · subst own
          cases Option.some.inj (by simpa [moveTo, SyncPhase.listed] using listed)
          exact .inl rfl
        · apply tracked.entries other listing _ objectId
          · simpa [moveTo, Function.update_of_ne own] using unpushed
          · simpa [moveTo, Function.update_of_ne own] using listed
      · exact tracked.syncNext current fresh recorded same
      · exact tracked.keep recorded rfl rfl rfl rfl (by simp [done]) tracked.log
      · exact tracked.keep recorded rfl rfl rfl rfl (by simp [done]) tracked.log

/-- In every run whose pushes go by fresh listings, no manager replaces a version that
another one has pushed without having acknowledged or pulled it. -/
theorem informed_of_listingFresh [Fintype Device] {policy : Device → SyncPolicy}
    {remote : Remote} {actions : List (SyncAction Device)} {final : Syncing Device}
    (fresh : StepFunction.Meets step ListingFresh (start policy remote) actions)
    (reached : StepFunction.run step (start policy remote) actions = some final) :
    ∀ handling ∈ final.log, handling.Informed :=
  (StepFunction.invariant_of_meets
    (fun _ _ _ tracked fresh stepped => Tracked.step tracked fresh stepped)
    (tracked_start policy remote) fresh reached).log

/-- A run over one object: the listing, and then the object. -/
def listing (device : Bool) (contentHash : String) : List (SyncAction Bool) :=
  [.sync device
      [{ objectId := "task", objectType := "task", version := "v" ++ contentHash,
         contentHash }],
    .advance device none]

/-- Both managers list an empty remote side before either of them pushes. -/
def bothListed : List (SyncAction Bool) :=
  listing false "1" ++ listing true "2" ++ [.advance false none, .advance true none]

theorem bothListed_loses_version :
    ∃ final,
      StepFunction.run step (start (fun _ => {}) Dict.empty) bothListed = some final ∧
      ∃ handling ∈ final.log, handling.device = true ∧ handling.owner = some false ∧
        handling.before.map SyncObject.listing = some ("v1", "1") ∧
        handling.known = none ∧ handling.pulled = [] ∧ handling.state = .uploaded ∧
        handling.after.map SyncObject.listing = some ("v2", "2") ∧
        ¬ handling.Informed := by
  refine ⟨_, rfl, _, .tail _ (.head _), rfl, rfl, rfl, rfl, rfl, rfl, rfl, ?_⟩
  intro informed
  exact absurd (informed _ _ rfl rfl (by decide) rfl) (by decide)

/-- The second manager lists after the first one has pushed. -/
def listedAfter : List (SyncAction Bool) :=
  listing false "1" ++ [.advance false none] ++ listing true "2" ++ [.advance true none]

theorem informed_of_listedAfter :
    ∃ final,
      StepFunction.run step (start (fun _ => {}) Dict.empty) listedAfter = some final ∧
      ∀ handling ∈ final.log, handling.Informed :=
  ⟨_, rfl, @informed_of_listingFresh Bool _ _ (fun _ => {}) Dict.empty listedAfter _
    (by decide +kernel) rfl⟩

end Syncing

end Raphael.Cloud
