import Raphael.Foundation.Faults
import Raphael.Personalization.MemoryTrust

/-! # Consolidation

A consolidation reads the memories that it names, stores the new one and archives the others,
one repository call after the other. Each of the calls may fail, and then leaves the table. -/

namespace Raphael.Personalization

open Core Foundation Persistence

/-! ## Repository calls that may fail -/

/-- Work on the table of memories in which repository calls may fail. -/
abbrev FallibleM (Score : Type) := EStateM Error (Faulty Error (SnapshotTable (Memory Score)))

namespace FallibleStore

variable {Score : Type}

def archive (now : Int) (memoryId : String) : FallibleM Score (Memory Score) := do
  match ← attempt (MemoryRepository.get memoryId) with
  | none => throw (MemoryStore.notFound memoryId)
  | some memory => attempt (MemoryRepository.update now { memory with status := .archived })

/-- One of the memories that a proposal names. -/
def consolidated (memoryId : String) : FallibleM Score (Memory Score) := do
  match ← attempt (MemoryRepository.get memoryId) with
  | none => throw (MemoryStore.notFound memoryId)
  | some memory =>
      if memory.status ≠ .active then
        throw (.domainValidation ("memory " ++ memoryId ++ " is not ACTIVE"))
      return memory

def proposeConsolidation (ids : List String) (newCandidate : MemoryCandidate Score)
    (reason : String) : FallibleM Score (ConsolidationProposal Score) := do
  if ids.length < 2 then
    throw (.domainValidation "consolidation needs at least 2 memories")
  let olds ← ids.mapM consolidated
  MonadExcept.ofExcept (MemoryStore.checkScopes newCandidate
    (olds.map fun memory => (memory.scope, memory.scopeId)).dedup)
  return { newCandidate := newCandidate, archiveIds := ids, reason := reason }

variable [LE Score] [LT Score] [DecidableLE Score] [DecidableLT Score] [Zero Score]
  [One Score]

def store (store : MemoryStore Score) (id : String) (now : Int)
    (candidate : MemoryCandidate Score) : FallibleM Score (Memory Score) := do
  MonadExcept.ofExcept (store.propose candidate)
  let (accepted, reason) := store.evaluate candidate
  if !accepted then
    throw (.domainValidation ("candidate rejected: " ++ reason))
  let memories ← attempt MemoryRepository.list
  let related := (MemoryStore.findConflicts memories candidate 5).map Memory.id
  let memory ← MonadExcept.ofExcept (store.newMemory id now candidate related none)
  attempt (MemoryRepository.create now memory)

def applyConsolidation (store : MemoryStore Score) (id : String) (now : Int)
    (proposal : ConsolidationProposal Score) : FallibleM Score (Memory Score) := do
  let fresh ← proposeConsolidation proposal.archiveIds proposal.newCandidate proposal.reason
  let created ← FallibleStore.store store id now fresh.newCandidate
  let updated ← attempt (MemoryRepository.update now { created with
    metadata := Json.insert created.metadata "consolidates"
      (.arr (fresh.archiveIds.map .str)) })
  fresh.archiveIds.forM fun memoryId => do
    let _ ← archive now memoryId
  return updated

end FallibleStore

/-! ## The calls of a consolidation -/

section Calls

variable {Score : Type}

theorem tracks_archive (now : Int) (memoryId : String) :
    Tracks (FallibleStore.archive now memoryId : FallibleM Score _)
      (MemoryStore.archive now memoryId) 2 := by
  unfold FallibleStore.archive MemoryStore.archive
  change Tracks _ _ (1 + 1)
  apply (Tracks.attempt _).bind
  intro found
  cases found with
  | none => exact Tracks.throw _ 1
  | some memory => exact Tracks.attempt _

theorem tracks_consolidated (memoryId : String) :
    Tracks (FallibleStore.consolidated memoryId : FallibleM Score _)
      (MemoryStore.consolidated memoryId) 1 := by
  unfold FallibleStore.consolidated MemoryStore.consolidated
  change Tracks _ _ (1 + 0)
  apply (Tracks.attempt _).bind
  intro found
  cases found with
  | none => exact Tracks.throw _ 0
  | some memory =>
      dsimp only
      split
      · exact Tracks.throw _ 0
      · exact Tracks.pure memory

theorem tracks_proposeConsolidation (ids : List String) (newCandidate : MemoryCandidate Score)
    (reason : String) :
    Tracks (FallibleStore.proposeConsolidation ids newCandidate reason)
      (MemoryStore.proposeConsolidation ids newCandidate reason) ids.length := by
  unfold FallibleStore.proposeConsolidation MemoryStore.proposeConsolidation
  by_cases short : ids.length < 2
  · rw [if_pos short, if_pos short]
    exact Tracks.throw _ _
  · rw [if_neg short, if_neg short]
    have loop := Tracks.mapM (@tracks_consolidated Score) ids
    rw [Nat.one_mul] at loop
    exact loop.bind fun olds => (Tracks.ofExcept _).bind fun _ => Tracks.pure _

variable [LE Score] [LT Score] [DecidableLE Score] [DecidableLT Score] [Zero Score]
  [One Score]

theorem tracks_store (store : MemoryStore Score) (id : String) (now : Int)
    (candidate : MemoryCandidate Score) :
    Tracks (FallibleStore.store store id now candidate) (store.store id now candidate) 2 := by
  unfold FallibleStore.store MemoryStore.store MemoryStore.storeWith
  change Tracks _ _ (0 + (1 + (0 + 1)))
  apply (Tracks.ofExcept _).bind
  intro _
  dsimp only
  by_cases rejected : (!(store.evaluate candidate).1) = true
  · rw [if_pos rejected, if_pos rejected]
    exact Tracks.throw _ _
  · rw [if_neg rejected, if_neg rejected]
    exact (Tracks.attempt _).bind fun memories => (Tracks.ofExcept _).bind fun memory =>
      Tracks.attempt _

end Calls

/-! ## The two parts of a consolidation -/

section Parts

variable {Score : Type} {table after : SnapshotTable (Memory Score)}

/-- `proposeConsolidation` writes nothing, and the memories that it accepts are stored. -/
private theorem consolidated_eq_ok {memoryId : String} {memory : Memory Score}
    (returns : MemoryStore.consolidated memoryId table = .ok memory after) :
    after = table ∧ table.get memoryId = some memory := by
  rcases bind_eq_ok.mp returns with ⟨found, between, read, returns⟩
  cases read
  cases stored : table.get memoryId with
  | none =>
      rw [stored] at returns
      cases returns
  | some held =>
      rw [stored] at returns
      dsimp only at returns
      split at returns
      · cases returns
      · cases returns
        exact ⟨rfl, rfl⟩

private theorem olds_eq_ok {ids : List String} {olds : List (Memory Score)}
    (returns : ids.mapM MemoryStore.consolidated table = .ok olds after) :
    after = table ∧ ∀ memoryId ∈ ids, (table.get memoryId).isSome := by
  induction ids generalizing olds after with
  | nil =>
      cases returns
      exact ⟨rfl, fun _ member => (List.not_mem_nil member).elim⟩
  | cons id rest induction =>
      rw [List.mapM_cons] at returns
      rcases bind_eq_ok.mp returns with ⟨memory, between, read, later⟩
      rcases consolidated_eq_ok read with ⟨rfl, stored⟩
      rcases bind_eq_ok.mp later with ⟨others, left, readRest, last⟩
      rcases induction readRest with ⟨rfl, storedRest⟩
      cases last
      exact ⟨rfl, List.forall_mem_cons.mpr ⟨Option.isSome_of_eq_some stored, storedRest⟩⟩

theorem proposeConsolidation_eq_ok {ids : List String} {candidate : MemoryCandidate Score}
    {reason : String} {fresh : ConsolidationProposal Score}
    (returns : MemoryStore.proposeConsolidation ids candidate reason table = .ok fresh after) :
    after = table ∧ (∀ memoryId ∈ ids, (table.get memoryId).isSome) ∧
      fresh = { newCandidate := candidate, archiveIds := ids, reason := reason } := by
  unfold MemoryStore.proposeConsolidation at returns
  by_cases short : ids.length < 2
  · rw [if_pos short] at returns
    cases returns
  · rw [if_neg short] at returns
    rcases bind_eq_ok.mp returns with ⟨olds, between, read, later⟩
    rcases olds_eq_ok read with ⟨rfl, stored⟩
    rcases bind_eq_ok.mp later with ⟨_, left, checked, last⟩
    obtain rfl := state_of_ofExcept checked
    cases last
    exact ⟨rfl, stored, rfl⟩

/-- The last calls: the new memory is marked, and the others are archived. -/
def MemoryStore.retire (now : Int) (ids : List String) (created : Memory Score) :
    MemoryM Score (Memory Score) := do
  let updated ← MemoryRepository.update now { created with
    metadata := Json.insert created.metadata "consolidates" (.arr (ids.map .str)) }
  ids.forM fun memoryId => do
    let _ ← MemoryStore.archive now memoryId
  return updated

/-- The record that a call of `archive` leaves. -/
def Memory.archived (now : Int) (memory : Memory Score) : Memory Score :=
  { memory with status := .archived, updatedAt := now }

private theorem archive_returns {now : Int} {memoryId : String} {memory : Memory Score}
    (stored : table.get memoryId = some memory) :
    ∃ left, MemoryStore.archive now memoryId table = .ok (memory.archived now) left ∧
      ∀ other, left.get other =
        if other = memoryId then some (memory.archived now) else table.get other := by
  refine ⟨(table.update now { memory with status := .archived }).1, ?_, fun other => ?_⟩
  · unfold MemoryStore.archive
    rw [bind_apply]
    change (match table.get memoryId with
      | none => throw (MemoryStore.notFound memoryId)
      | some memory => MemoryRepository.update now { memory with status := .archived } :
        MemoryM Score _) table = _
    rw [stored]
    change EStateM.Result.ok _ _ = _
    rw [SnapshotTable.update_snd]
    rfl
  · rw [SnapshotTable.get_update]
    have heldId : Entity.id memory = memoryId := SnapshotTable.id_of_get stored
    subst heldId
    rfl

/-- Stored memories are all archived, and the others stay as they are. -/
private theorem archives_return {now : Int} {ids : List String}
    (stored : ∀ memoryId ∈ ids, (table.get memoryId).isSome) :
    ∃ left, (ids.forM fun memoryId => do
        let _ ← MemoryStore.archive now memoryId : MemoryM Score PUnit) table = .ok ⟨⟩ left ∧
      ∀ other, left.get other =
        if other ∈ ids then (table.get other).map (Memory.archived now)
        else table.get other := by
  induction ids generalizing table with
  | nil => exact ⟨table, rfl, fun _ => rfl⟩
  | cons id rest induction =>
      rcases Option.isSome_iff_exists.mp (stored id List.mem_cons_self) with ⟨memory, found⟩
      rcases @archive_returns Score table now id memory found with ⟨between, returns, reads⟩
      have storedRest : ∀ memoryId ∈ rest, (between.get memoryId).isSome := by
        intro memoryId member
        rw [reads]
        split
        · rfl
        · exact stored memoryId (List.mem_cons_of_mem _ member)
      rcases induction storedRest with ⟨left, returnsRest, readsRest⟩
      refine ⟨left, ?_, fun other => ?_⟩
      · have first : (MemoryStore.archive now id >>= fun _ => pure () : MemoryM Score PUnit)
            table = .ok ⟨⟩ between := by
          rw [bind_apply, returns]
          rfl
        unfold List.forM
        rw [bind_apply, first]
        exact returnsRest
      · rw [readsRest, reads]
        by_cases same : other = id
        · subst same
          simp [found, Memory.archived]
        · simp [same]

/-- The last calls return, and leave the new memory beside archived ones. -/
theorem retire_returns {now : Int} {ids : List String} {created : Memory Score}
    (stored : ∀ memoryId ∈ ids, (table.get memoryId).isSome) (isNew : created.id ∉ ids) :
    ∃ updated left, MemoryStore.retire now ids created table = .ok updated left ∧
      left.get created.id = some updated ∧ updated.id = created.id ∧
      updated.status = created.status ∧ updated.content = created.content ∧
      ∀ memoryId ∈ ids, ∃ memory, left.get memoryId = some memory ∧
        memory.status = .archived := by
  let marked : Memory Score := { created with
    metadata := Json.insert created.metadata "consolidates" (.arr (ids.map .str)) }
  have reads := SnapshotTable.get_update table now marked
  have storedStill : ∀ memoryId ∈ ids,
      ((table.update now marked).1.get memoryId).isSome := by
    intro memoryId member
    rw [reads]
    split
    · rfl
    · exact stored memoryId member
  rcases @archives_return Score _ now ids storedStill with ⟨left, returns, readsLeft⟩
  refine ⟨Entity.touch now marked, left, ?_, ?_, rfl, rfl, rfl, ?_⟩
  · unfold MemoryStore.retire
    rw [bind_apply]
    change (_ >>= fun _ => pure (table.update now marked).2 : MemoryM Score _)
      (table.update now marked).1 = _
    rw [bind_apply, returns, SnapshotTable.update_snd]
    rfl
  · rw [readsLeft, if_neg isNew, reads]
    exact if_pos rfl
  · intro memoryId member
    rcases Option.isSome_iff_exists.mp (storedStill memoryId member) with ⟨memory, found⟩
    refine ⟨memory.archived now, ?_, rfl⟩
    rw [readsLeft, if_pos member, found]
    rfl

private theorem newMemory_eq_ok {store : MemoryStore Score} {id : String} {now : Int}
    {candidate : MemoryCandidate Score} {related : List String} {memory : Memory Score}
    (made : store.newMemory id now candidate related none = .ok memory) :
    memory.status = .active ∧ memory.content = candidate.content := by
  unfold MemoryStore.newMemory at made
  rcases except_bind_eq_ok.mp made with ⟨retentionDays, _, made⟩
  rcases except_bind_eq_ok.mp made with ⟨expiresAt, _, made⟩
  cases made
  exact ⟨rfl, rfl⟩

variable [LE Score] [LT Score] [DecidableLE Score] [DecidableLT Score] [Zero Score]
  [One Score]

/-- The first calls: up to the one that inserts the new memory. -/
def MemoryStore.merge (store : MemoryStore Score) (id : String) (now : Int)
    (proposal : ConsolidationProposal Score) : MemoryM Score (Memory Score) := do
  let fresh ← MemoryStore.proposeConsolidation proposal.archiveIds proposal.newCandidate
    proposal.reason
  store.store id now fresh.newCandidate

/-- A stored candidate is a new active row. -/
private theorem store_eq_ok {store : MemoryStore Score} {id : String} {now : Int}
    {candidate : MemoryCandidate Score} {created : Memory Score}
    (returns : store.store id now candidate table = .ok created after) :
    (∀ other, after.get other =
      if other = created.id then some created else table.get other) ∧
      table.get created.id = none ∧
      created.status = .active ∧ created.content = candidate.content := by
  unfold MemoryStore.store MemoryStore.storeWith at returns
  rcases bind_eq_ok.mp returns with ⟨_, checkedTable, checked, later⟩
  obtain rfl := state_of_ofExcept checked
  dsimp only at later
  by_cases rejected : (!(store.evaluate candidate).1) = true
  · rw [if_pos rejected] at later
    cases later
  · rw [if_neg rejected] at later
    rcases bind_eq_ok.mp later with ⟨memories, listedTable, listed, later⟩
    cases listed
    rcases bind_eq_ok.mp later with ⟨memory, madeTable, made, last⟩
    obtain rfl := state_of_ofExcept made
    have isNew := newMemory_eq_ok (ofExcept_eq_ok made).1
    unfold MemoryRepository.create at last
    cases written : madeTable.create now memory with
    | error error =>
        rw [written] at last
        cases last
    | ok answer =>
        rcases answer with ⟨next, record⟩
        rw [written] at last
        cases last
        have ⟨touched, _, unused⟩ := SnapshotTable.create_eq_ok written
        have reads := SnapshotTable.get_create written
        subst touched
        exact ⟨reads, unused, isNew⟩

/-- The first calls return with a new active row, beside those that are to be archived. -/
theorem merge_eq_ok {store : MemoryStore Score} {id : String} {now : Int}
    {proposal : ConsolidationProposal Score} {created : Memory Score}
    (returns : store.merge id now proposal table = .ok created after) :
    (∀ other, after.get other =
      if other = created.id then some created else table.get other) ∧
      table.get created.id = none ∧
      created.status = .active ∧ created.content = proposal.newCandidate.content ∧
      ∀ memoryId ∈ proposal.archiveIds, (table.get memoryId).isSome := by
  rcases bind_eq_ok.mp returns with ⟨fresh, between, proposed, later⟩
  rcases proposeConsolidation_eq_ok proposed with ⟨rfl, stored, rfl⟩
  have ⟨reads, unused, active, content⟩ := store_eq_ok later
  exact ⟨reads, unused, active, content, stored⟩

/-- A consolidation is its first calls and then its last ones. -/
theorem applyConsolidation_eq (store : MemoryStore Score) (id : String) (now : Int)
    (proposal : ConsolidationProposal Score) :
    store.applyConsolidation id now proposal =
      store.merge id now proposal >>= MemoryStore.retire now proposal.archiveIds := by
  funext table
  unfold MemoryStore.applyConsolidation MemoryStore.merge
  rw [bind_assoc, bind_apply, bind_apply]
  cases proposed : MemoryStore.proposeConsolidation proposal.archiveIds proposal.newCandidate
      proposal.reason table with
  | error error left => rfl
  | ok fresh left =>
      rcases proposeConsolidation_eq_ok proposed with ⟨_, _, rfl⟩
      rfl

end Parts

/-! ## The two parts when calls may fail -/

section FallibleParts

variable {Score : Type}

namespace FallibleStore

def retire (now : Int) (ids : List String) (created : Memory Score) :
    FallibleM Score (Memory Score) := do
  let updated ← attempt (MemoryRepository.update now { created with
    metadata := Json.insert created.metadata "consolidates" (.arr (ids.map .str)) })
  ids.forM fun memoryId => do
    let _ ← archive now memoryId
  return updated

theorem tracks_retire (now : Int) (ids : List String) (created : Memory Score) :
    Tracks (retire now ids created) (MemoryStore.retire now ids created)
      (1 + 2 * ids.length) := by
  unfold retire MemoryStore.retire
  apply (Tracks.attempt _).bind
  intro updated
  have loop := Tracks.forM (fun memoryId =>
    (tracks_archive now memoryId).bind fun _ : Memory Score => Tracks.pure PUnit.unit) ids
  exact loop.bind fun _ => Tracks.pure updated

variable [LE Score] [LT Score] [DecidableLE Score] [DecidableLT Score] [Zero Score]
  [One Score]

def merge (store : MemoryStore Score) (id : String) (now : Int)
    (proposal : ConsolidationProposal Score) : FallibleM Score (Memory Score) := do
  let fresh ← proposeConsolidation proposal.archiveIds proposal.newCandidate proposal.reason
  FallibleStore.store store id now fresh.newCandidate

theorem tracks_merge (store : MemoryStore Score) (id : String) (now : Int)
    (proposal : ConsolidationProposal Score) :
    Tracks (merge store id now proposal) (store.merge id now proposal)
      (proposal.archiveIds.length + 2) :=
  (tracks_proposeConsolidation _ _ _).bind fun _ => tracks_store store id now _

theorem applyConsolidation_eq (store : MemoryStore Score) (id : String) (now : Int)
    (proposal : ConsolidationProposal Score) :
    applyConsolidation store id now proposal =
      merge store id now proposal >>= retire now proposal.archiveIds := by
  funext given
  unfold applyConsolidation merge
  rw [bind_assoc, bind_apply, bind_apply]
  cases proposed : proposeConsolidation proposal.archiveIds proposal.newCandidate
      proposal.reason given with
  | error error left => rfl
  | ok fresh left =>
      have plain := (tracks_proposeConsolidation _ _ _ _ _ _).mp proposed
      rcases proposeConsolidation_eq_ok plain.2.1 with ⟨_, _, rfl⟩
      rfl

/-- Without failing calls a consolidation is that of the store. -/
theorem tracks_applyConsolidation (store : MemoryStore Score) (id : String) (now : Int)
    (proposal : ConsolidationProposal Score) :
    Tracks (applyConsolidation store id now proposal) (store.applyConsolidation id now proposal)
      (proposal.archiveIds.length + 2 + (1 + 2 * proposal.archiveIds.length)) := by
  rw [applyConsolidation_eq, Personalization.applyConsolidation_eq]
  exact (tracks_merge store id now proposal).bind fun created => tracks_retire now _ created

end FallibleStore

end FallibleParts

/-! ## What the parts leave when they raise -/

section Leftovers

variable {Score : Type}

private theorem preserves_consolidated_fallible (table : SnapshotTable (Memory Score))
    (memoryId : String) :
    Preserves (fun given => given.state = table)
      (FallibleStore.consolidated memoryId : FallibleM Score _) := by
  have reads : Preserves (· = table) (MemoryRepository.get memoryId : MemoryM Score _) :=
    fun _ holds => holds
  apply reads.attempt.bind
  intro found
  cases found with
  | none => exact Preserves.throw _
  | some memory =>
      dsimp only
      split
      · exact Preserves.throw _
      · exact Preserves.pure memory

/-- Some active memory is stored under the id. -/
def ActiveUnder (memoryId : String) (given : Faulty Error (SnapshotTable (Memory Score))) :
    Prop :=
  ∃ memory, given.state.get memoryId = some memory ∧ memory.status = .active

private theorem preserves_update_active {now : Int} {memoryId : String}
    {memory : Memory Score} (kept : memory.id = memoryId → memory.status = .active) :
    Preserves (ActiveUnder memoryId) (attempt (MemoryRepository.update now memory)) := by
  apply @Preserves.attempt _ _ _ (fun table : SnapshotTable (Memory Score) =>
    ∃ memory, table.get memoryId = some memory ∧ memory.status = .active)
  rintro table ⟨held, stored, active⟩
  change ∃ other, (table.update now memory).1.get memoryId = some other ∧ other.status = .active
  rw [SnapshotTable.get_update]
  split
  · next same => exact ⟨Entity.touch now memory, rfl, kept same.symm⟩
  · exact ⟨held, stored, active⟩

private theorem preserves_archive_active {now : Int} {memoryId newId : String}
    (differs : memoryId ≠ newId) :
    Preserves (ActiveUnder newId)
      (FallibleStore.archive now memoryId : FallibleM Score (Memory Score)) := by
  have reads : Preserves (ActiveUnder newId)
      (attempt (MemoryRepository.get memoryId) : FallibleM Score _) :=
    @Preserves.attempt _ _ _ (fun table : SnapshotTable (Memory Score) =>
      ∃ memory, table.get newId = some memory ∧ memory.status = .active) _ fun _ holds => holds
  have answer : ∀ (given : Faulty Error (SnapshotTable (Memory Score))) found after,
      ActiveUnder newId given →
      attempt (MemoryRepository.get memoryId) given = .ok found after →
      ∀ memory, found = some memory → memory.id = memoryId := by
    rintro given found after _ returns memory rfl
    have ⟨_, plain, _⟩ := (Tracks.attempt (MemoryRepository.get memoryId) _ _ _).mp returns
    injection plain with stored
    exact SnapshotTable.id_of_get stored
  unfold FallibleStore.archive
  apply reads.bind_of answer
  intro found isNamed
  cases found with
  | none => exact Preserves.throw _
  | some memory =>
      apply preserves_update_active
      intro same
      exact absurd ((isNamed memory rfl).symm.trans same) differs

/-- The last calls do not archive the new memory. -/
private theorem preserves_retire_active {now : Int} {ids : List String}
    {created : Memory Score} (active : created.status = .active) (isNew : created.id ∉ ids) :
    Preserves (ActiveUnder created.id) (FallibleStore.retire now ids created) := by
  have marks := @preserves_update_active Score now created.id { created with
    metadata := Json.insert created.metadata "consolidates" (.arr (ids.map .str)) }
    fun _ => active
  have archives : Preserves (ActiveUnder created.id)
      (ids.forM fun memoryId => FallibleStore.archive now memoryId >>= fun _ => pure () :
        FallibleM Score PUnit) := by
    apply Preserves.forM
    intro memoryId member
    have differs : memoryId ≠ created.id := fun same => isNew (same ▸ member)
    exact (preserves_archive_active differs).bind fun _ => Preserves.pure _
  exact marks.bind fun updated => archives.bind fun _ => Preserves.pure updated

variable [LE Score] [LT Score] [DecidableLE Score] [DecidableLT Score] [Zero Score]
  [One Score]

private theorem undone_merge (store : MemoryStore Score) (id : String) (now : Int)
    (proposal : ConsolidationProposal Score) (table : SnapshotTable (Memory Score)) :
    Undone (fun given => given.state = table) (FallibleStore.merge store id now proposal) := by
  have lists : Preserves (· = table) (MemoryRepository.list : MemoryM Score _) :=
    fun _ holds => holds
  have creates (memory : Memory Score) :
      Undone (· = table) (MemoryRepository.create now memory : MemoryM Score _) := by
    rintro _ rfl error after raises
    unfold MemoryRepository.create at raises
    split at raises
    · cases raises
    · cases raises
      rfl
  have proposes : Preserves (fun given => given.state = table)
      (FallibleStore.proposeConsolidation proposal.archiveIds proposal.newCandidate
        proposal.reason : FallibleM Score _) := by
    unfold FallibleStore.proposeConsolidation
    by_cases short : proposal.archiveIds.length < 2
    · rw [if_pos short]
      exact Preserves.throw _
    · rw [if_neg short]
      exact (Preserves.mapM (preserves_consolidated_fallible table) _).bind fun olds =>
        (Preserves.ofExcept _).bind fun _ => Preserves.pure _
  apply Undone.bind proposes
  intro fresh
  have checks : Preserves (fun given => given.state = table)
      (MonadExcept.ofExcept (store.propose fresh.newCandidate) : FallibleM Score Unit) :=
    Preserves.ofExcept _
  unfold FallibleStore.store
  apply Undone.bind checks
  intro _
  dsimp only
  by_cases rejected : (!(store.evaluate fresh.newCandidate).1) = true
  · rw [if_pos rejected]
    exact Undone.of_preserves (Preserves.throw _)
  · rw [if_neg rejected]
    exact Undone.bind lists.attempt fun memories =>
      Undone.bind (Preserves.ofExcept _) fun memory => (creates memory).attempt

end Leftovers

/-! ## All or nothing -/

section AllOrNothing

variable {Score : Type}

/-- The active memories, with all that they hold. -/
def activeMemories (table : SnapshotTable (Memory Score)) : List (Memory Score) :=
  table.rows.filter fun memory => memory.status = .active

/-- A consolidation that raises leaves the active memories; one that returns has stored the
new memory, and every source is archived. -/
def AllOrNothing (proposal : ConsolidationProposal Score)
    (given : Faulty Error (SnapshotTable (Memory Score))) :
    EStateM.Result Error (Faulty Error (SnapshotTable (Memory Score))) (Memory Score) → Prop
  | .error _ after => activeMemories after.state = activeMemories given.state
  | .ok created after =>
      given.state.get created.id = none ∧ after.state.get created.id = some created ∧
        created.status = .active ∧ created.content = proposal.newCandidate.content ∧
        ∀ memoryId ∈ proposal.archiveIds, ∃ memory,
          after.state.get memoryId = some memory ∧ memory.status = .archived

variable [LE Score] [LT Score] [DecidableLE Score] [DecidableLT Score] [Zero Score]
  [One Score]

omit [LE Score] [LT Score] [DecidableLE Score] [DecidableLT Score] [Zero Score] [One Score] in
/-- An active memory under an id that was unused makes the active memories others. -/
private theorem activeMemories_ne {before after : SnapshotTable (Memory Score)}
    {memoryId : String} (unused : before.get memoryId = none) {memory : Memory Score}
    (found : after.get memoryId = some memory) (active : memory.status = .active) :
    activeMemories after ≠ activeMemories before := by
  intro same
  have ⟨row, ownId⟩ := SnapshotTable.get_eq_some_iff.mp found
  have member : memory ∈ activeMemories after :=
    List.mem_filter.mpr ⟨row, decide_eq_true active⟩
  rw [same] at member
  have stored := SnapshotTable.get_eq_some_iff.mpr ⟨(List.mem_filter.mp member).1, ownId⟩
  rw [unused] at stored
  cases stored

/-- Behind the calls that have inserted the new memory, the others must not fail. -/
private theorem retire_allOrNothing_iff {store : MemoryStore Score} {id : String} {now : Int}
    {proposal : ConsolidationProposal Score}
    {given between : Faulty Error (SnapshotTable (Memory Score))} {created : Memory Score}
    (plain : store.merge id now proposal given.state = .ok created between.state) :
    AllOrNothing proposal given
        (FallibleStore.retire now proposal.archiveIds created between) ↔
      Clean (1 + 2 * proposal.archiveIds.length) between.faults := by
  have ⟨reads, unused, active, content, stored⟩ := merge_eq_ok plain
  have isNew : created.id ∉ proposal.archiveIds := by
    intro member
    have held := stored created.id member
    rw [unused] at held
    cases held
  have inserted : between.state.get created.id = some created := by
    rw [reads, if_pos rfl]
  have storedLater : ∀ memoryId ∈ proposal.archiveIds,
      (between.state.get memoryId).isSome := by
    intro memoryId member
    have differs : memoryId ≠ created.id := by
      rintro rfl
      exact isNew member
    rw [reads, if_neg differs]
    exact stored memoryId member
  rcases @retire_returns Score _ now _ created storedLater isNew with
    ⟨updated, last, returns, holds, sameId, sameStatus, sameContent, archived⟩
  have tracks := FallibleStore.tracks_retire now proposal.archiveIds created between
  cases retired : FallibleStore.retire now proposal.archiveIds created between with
  | ok answer after =>
      rcases (tracks answer after).mp retired with ⟨clean, plainRest, _⟩
      rw [returns] at plainRest
      cases plainRest
      apply iff_of_true _ clean
      exact ⟨sameId ▸ unused, sameId ▸ holds, sameStatus.trans active,
        sameContent.trans content, archived⟩
  | error error after =>
      have kept := (preserves_retire_active active isNew).raised
        ⟨created, inserted, active⟩ retired
      rcases kept with ⟨memory, found, stillActive⟩
      apply iff_of_false
      · exact activeMemories_ne unused found stillActive
      · intro clean
        have success := (tracks updated ⟨last, _⟩).mpr ⟨clean, returns, rfl⟩
        rw [retired] at success
        cases success

/-- A consolidation is all or nothing exactly when no repository call fails behind the one
that inserts the new memory: the calls up to it read each source, list the memories and
create one, and those behind it mark the new memory and archive each source. -/
theorem applyConsolidation_allOrNothing_iff (store : MemoryStore Score) (id : String)
    (now : Int) (proposal : ConsolidationProposal Score)
    (given : Faulty Error (SnapshotTable (Memory Score))) :
    AllOrNothing proposal given
        (FallibleStore.applyConsolidation store id now proposal given) ↔
      ((∃ created left, store.merge id now proposal given.state = .ok created left) →
        Clean (proposal.archiveIds.length + 2) given.faults →
        Clean (1 + 2 * proposal.archiveIds.length)
          (given.faults.drop (proposal.archiveIds.length + 2))) := by
  rw [FallibleStore.applyConsolidation_eq, bind_apply]
  cases merged : FallibleStore.merge store id now proposal given with
  | error error after =>
      have kept := undone_merge store id now proposal given.state given rfl error after merged
      apply iff_of_true
      · change activeMemories _ = _
        rw [kept]
      · rintro ⟨created, left, plain⟩ clean
        have returns := (FallibleStore.tracks_merge store id now proposal given created
          ⟨left, _⟩).mpr ⟨clean, plain, rfl⟩
        rw [merged] at returns
        cases returns
  | ok created between =>
      have ⟨clean, plain, left⟩ :=
        (FallibleStore.tracks_merge store id now proposal given created between).mp merged
      dsimp only
      rw [retire_allOrNothing_iff plain, left]
      constructor
      · exact fun cleanRest _ _ => cleanRest
      · exact fun passes => passes ⟨created, between.state, plain⟩ clean

def sourceMemory (id : String) : Memory Rat where
  id := id
  createdAt := 0
  updatedAt := 0
  type := .semantic
  content := "Observed result"
  source := ""
  confidence := 9 / 10
  importance := 9 / 10
  scope := .global
  scopeId := ""

def sourceTable : SnapshotTable (Memory Rat) where
  name := "memories"
  rows := [sourceMemory "m1", sourceMemory "m2"]
  distinct := by decide

def bothObserved : ConsolidationProposal Rat where
  newCandidate := MemoryHistory.observation
  archiveIds := ["m1", "m2"]

/-- The call that marks the new memory fails. -/
theorem applyConsolidation_interrupted :
    ¬ AllOrNothing bothObserved
      ⟨sourceTable, [none, none, none, none, some (.other "database is locked")]⟩
      (FallibleStore.applyConsolidation MemoryHistory.plainStore "m3" 1 bothObserved
        ⟨sourceTable, [none, none, none, none, some (.other "database is locked")]⟩) := by
  have raised : (match FallibleStore.applyConsolidation MemoryHistory.plainStore "m3" 1
      bothObserved
      ⟨sourceTable, [none, none, none, none, some (.other "database is locked")]⟩ with
    | .error _ after => (activeMemories after.state).map Memory.id == ["m1", "m2", "m3"]
    | .ok _ _ => false) = true := by
    decide +kernel
  split at raised
  · next error after returned =>
      rw [returned]
      intro same
      have ids := congrArg (List.map Memory.id) same
      rw [beq_iff_eq.mp raised] at ids
      revert ids
      decide +kernel
  · cases raised

end AllOrNothing

end Raphael.Personalization
