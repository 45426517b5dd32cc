import Raphael.Personalization.MemoryTrust

/-! # Retrieval and expiry

What the store shows at an instant, against what a purge would delete then. The filters of
`retrieve` and of `list_cloud_eligible` read the date of expiry, and the purge the
retention as well. -/

namespace Raphael.Personalization

open Foundation Persistence

structure MemoryQuery where
  scope : MemoryScope
  scopeId : String := ""
  memoryType : Option MemoryType := none
  query : String := ""
  limit : Int := 10
  projectId : String := ""
  includeArchived : Bool := false

/-- The weighted and rounded score of a memory at an instant, by the words that it shares
with the words of a query. -/
abbrev MemoryRank (Score Rank : Type) :=
  (shared words : Nat) → Memory Score → (now : Int) → Rank

namespace MemoryStore

variable {Score Rank : Type}

/-- `_visible`. -/
def visible (memory : Memory Score) (scope : MemoryScope) (scopeId projectId : String) :
    Bool :=
  if memory.scope = .global then true
  else if memory.scope = scope ∧ memory.scopeId = scopeId then true
  else projectId ≠ "" && memory.scope = .project && memory.scopeId = projectId

/-- The date of expiry has come. -/
def pastDate (now : Int) (memory : Memory Score) : Bool := memory.expiresAt.any (· ≤ now)

/-- The checks that a memory passes one after the other. -/
def relevant (query : MemoryQuery) (now : Int) (memory : Memory Score) : Bool :=
  let queryWords := keywords query.query
  if memory.status = .deleted ∨ memory.status = .archived ∧ !query.includeArchived then false
  else if pastDate now memory then false
  else if !visible memory query.scope query.scopeId query.projectId then false
  else if query.memoryType.any (memory.type ≠ ·) then false
  else if queryWords ≠ [] ∧ overlap queryWords (keywords memory.content) = 0 then false
  else true

/-- The higher score first, then the older, then the smaller id. -/
def ranksBefore [LT Rank] [DecidableEq Rank] [DecidableLT Rank]
    (first second : Rank × Memory Score) : Prop :=
  second.1 < first.1 ∨ first.1 = second.1 ∧ (first.2.createdAt < second.2.createdAt ∨
    first.2.createdAt = second.2.createdAt ∧ first.2.id ≤ second.2.id)

instance [LT Rank] [DecidableEq Rank] [DecidableLT Rank] :
    DecidableRel (@ranksBefore Score Rank _ _ _) :=
  fun _ _ => inferInstanceAs (Decidable (_ ∨ _))

def retrieve [LT Rank] [DecidableEq Rank] [DecidableLT Rank] (rank : MemoryRank Score Rank)
    (now : Int) (query : MemoryQuery) : MemoryM Score (List (Memory Score)) := do
  let queryWords := keywords query.query
  let memories ← MemoryRepository.list
  let scored := (memories.filter (relevant query now)).map fun memory =>
    (rank (overlap queryWords (keywords memory.content)) queryWords.length memory now, memory)
  return ((scored.insertionSort ranksBefore).take query.limit.toNat).map Prod.snd

def listCloudEligible (now : Int) : MemoryM Score (List (Memory Score)) := do
  let memories ← MemoryRepository.list
  return memories.filter fun memory =>
    memory.status = .active && memory.cloudEligible && !pastDate now memory

/-! ## What is shown, and what would be purged -/

section Expiry

variable [LT Rank] [DecidableEq Rank] [DecidableLT Rank] {rank : MemoryRank Score Rank}
  {store : MemoryStore Score} {now : Int} {table : SnapshotTable (Memory Score)}
  {memory : Memory Score}

/-- Some retrieval of an instant returns the memory, or it is listed as eligible for the
cloud. -/
def Shows (rank : MemoryRank Score Rank) (now : Int) (table : SnapshotTable (Memory Score))
    (memory : Memory Score) : Prop :=
  (∃ query memories, retrieve rank now query table = .ok memories table ∧ memory ∈ memories) ∨
    ∃ memories, listCloudEligible now table = .ok memories table ∧ memory ∈ memories

/-- A purge of an instant deletes the memory. -/
def Purges (store : MemoryStore Score) (now : Int) (table : SnapshotTable (Memory Score))
    (memory : Memory Score) : Prop :=
  ∃ purged final, store.purgeExpired now table = .ok purged final ∧ memory.id ∈ purged

/-- The ids of the expired memories are purged. -/
theorem purgeExpired_returns (store : MemoryStore Score) (now : Int)
    (table : SnapshotTable (Memory Score)) : ∃ final, store.purgeExpired now table =
      .ok ((table.list.filter (store.expired now)).map Memory.id) final := by
  -- What is left to be looked at is still in the table.
  let left (rest : List (Memory Score)) (table : SnapshotTable (Memory Score)) : Prop :=
    (rest.map Memory.id).Nodup ∧ ∀ memory ∈ rest, memory ∈ table.rows
  have listed : left table.list table := by
    refine ⟨?_, fun memory member => SnapshotTable.mem_list.mp member⟩
    exact ((SnapshotTable.list_perm table).map Memory.id).nodup_iff.mpr table.distinct
  have purges : ∃ final, (table.list.filterM fun memory =>
      if store.expired now memory then delete memory.id else pure false) table =
        .ok (table.list.filter (store.expired now)) final := by
    apply filterM_returns (store.expired now) left _ listed
    intro item rest table ⟨distinct, present⟩
    rw [List.map_cons, List.nodup_cons] at distinct
    have kept : ∀ memory ∈ rest, memory ∈ table.rows :=
      fun memory member => present memory (List.mem_cons_of_mem _ member)
    cases isExpired : store.expired now item with
    | false => exact ⟨table, rfl, distinct.2, kept⟩
    | true =>
        have found : table.get item.id = some item :=
          SnapshotTable.get_eq_some_iff.mpr ⟨present item List.mem_cons_self, rfl⟩
        refine ⟨table.delete item.id, ?_, distinct.2, fun memory member => ?_⟩
        · rw [if_pos rfl]
          simp only [delete, MemoryRepository.delete, found, Option.isSome_some]
        · refine List.mem_filter.mpr ⟨kept memory member, ?_⟩
          have other : memory.id ≠ item.id := by
            intro same
            exact distinct.1 (same ▸ List.mem_map_of_mem member)
          exact bne_iff_ne.mpr other
  rcases purges with ⟨final, returns⟩
  refine ⟨final, ?_⟩
  unfold purgeExpired
  rw [bind_apply]
  simp only [MemoryRepository.list]
  rw [bind_apply, returns]
  rfl

theorem purges_iff (present : memory ∈ table.list) :
    store.Purges now table memory ↔ store.expired now memory = true := by
  rcases purgeExpired_returns store now table with ⟨final, returns⟩
  constructor
  · rintro ⟨purged, other, isPurged, member⟩
    cases returns.symm.trans isPurged
    rcases List.mem_map.mp member with ⟨expired, isExpired, same⟩
    rw [List.mem_filter] at isExpired
    have isMemory : expired = memory :=
      List.inj_on_of_nodup_map table.distinct (SnapshotTable.mem_list.mp isExpired.1)
        (SnapshotTable.mem_list.mp present) same
    exact isMemory ▸ isExpired.2
  · intro isExpired
    exact ⟨_, final, returns,
      List.mem_map_of_mem (List.mem_filter.mpr ⟨present, isExpired⟩)⟩

/-- A retrieval returns only what passes its checks. -/
theorem relevant_of_retrieve {query : MemoryQuery} {memories : List (Memory Score)}
    (returns : retrieve rank now query table = .ok memories table)
    (member : memory ∈ memories) :
    memory ∈ table.list ∧ relevant query now memory = true := by
  cases returns
  rcases List.mem_map.mp member with ⟨scored, isTaken, rfl⟩
  have isScored := (List.mem_insertionSort _).mp (List.mem_of_mem_take isTaken)
  rcases List.mem_map.mp isScored with ⟨relevant, isRelevant, rfl⟩
  exact List.mem_filter.mp isRelevant

theorem retrieve_of_relevant {query : MemoryQuery} (present : memory ∈ table.list)
    (isRelevant : relevant query now memory = true)
    (unlimited : table.list.length ≤ query.limit.toNat) :
    ∃ memories, retrieve rank now query table = .ok memories table ∧ memory ∈ memories := by
  let ranked := rank (overlap (keywords query.query) (keywords memory.content))
    (keywords query.query).length memory now
  refine ⟨_, rfl, List.mem_map.mpr ⟨(ranked, memory), ?_, rfl⟩⟩
  rw [List.take_of_length_le]
  · rw [List.mem_insertionSort]
    exact List.mem_map_of_mem (List.mem_filter.mpr ⟨present, isRelevant⟩)
  · rw [List.length_insertionSort, List.length_map]
    exact (List.length_filter_le _ _).trans unlimited

theorem undeleted_of_relevant {query : MemoryQuery}
    (isRelevant : relevant query now memory = true) :
    memory.status ≠ .deleted ∧ pastDate now memory = false := by
  simp only [relevant] at isRelevant
  split at isRelevant
  · cases isRelevant
  · next kept =>
      split at isRelevant
      · cases isRelevant
      · next dated => exact ⟨fun deleted => kept (.inl deleted), Bool.eq_false_iff.mpr dated⟩

/-- A query in the scope of a memory and without words, of archived memories as well. -/
def queryFor (memory : Memory Score) (limit : Int) : MemoryQuery where
  scope := memory.scope
  scopeId := memory.scopeId
  limit := limit
  includeArchived := true

theorem relevant_queryFor (limit : Int) (kept : memory.status ≠ .deleted)
    (dated : pastDate now memory = false) : relevant (queryFor memory limit) now memory = true := by
  have noWords : keywords "" = [] := rfl
  have isVisible : visible memory memory.scope memory.scopeId "" = true := by
    unfold visible
    split
    · rfl
    · rw [if_pos ⟨rfl, rfl⟩]
  simp [relevant, queryFor, kept, dated, isVisible, noWords]

/-- What can be shown at an instant is not deleted and not past its date. -/
theorem shows_iff :
    Shows rank now table memory ↔
      memory ∈ table.list ∧ memory.status ≠ .deleted ∧ pastDate now memory = false := by
  constructor
  · rintro (⟨query, memories, returns, member⟩ | ⟨memories, returns, member⟩)
    · rcases relevant_of_retrieve returns member with ⟨present, isRelevant⟩
      exact ⟨present, undeleted_of_relevant isRelevant⟩
    · cases returns
      rw [List.mem_filter, Bool.and_eq_true, Bool.and_eq_true, decide_eq_true_eq,
        Bool.not_eq_true'] at member
      rcases member with ⟨present, ⟨isActive, _⟩, dated⟩
      exact ⟨present, by rw [isActive]; nofun, dated⟩
  · rintro ⟨present, kept, dated⟩
    have unlimited : table.list.length ≤ (queryFor memory table.list.length).limit.toNat :=
      le_refl _
    exact .inl ⟨queryFor memory table.list.length,
      retrieve_of_relevant present (relevant_queryFor _ kept dated) unlimited⟩

/-- Nothing is shown that would be purged exactly where no memory that is neither deleted
nor past its date has outlived its retention. -/
theorem hides_expired_iff (store : MemoryStore Score) (rank : MemoryRank Score Rank)
    (now : Int) (table : SnapshotTable (Memory Score)) :
    (∀ memory, Shows rank now table memory → ¬ store.Purges now table memory) ↔
      ∀ memory ∈ table.list, memory.status ≠ .deleted →
        (∀ date, memory.expiresAt = some date → now < date) →
          ∀ days, memory.retentionDays = some days →
            store.runtime.outlives (now - memory.createdAt) days = false := by
  have dated (memory : Memory Score) : pastDate now memory = false ↔
      ∀ date, memory.expiresAt = some date → now < date := by
    unfold pastDate
    cases memory.expiresAt <;> simp
  have unexpired {memory : Memory Score} (isDated : pastDate now memory = false) :
      store.expired now memory ≠ true ↔ ∀ days, memory.retentionDays = some days →
        store.runtime.outlives (now - memory.createdAt) days = false := by
    have byRetention : store.expired now memory = memory.retentionDays.any fun days =>
        store.runtime.outlives (now - memory.createdAt) days := by
      unfold expired
      rw [show memory.expiresAt.any (· ≤ now) = false from isDated, Bool.false_or]
    rw [byRetention]
    cases memory.retentionDays <;> simp
  constructor
  · intro hides memory present kept isDated
    have shown : Shows rank now table memory :=
      shows_iff.mpr ⟨present, kept, (dated memory).mpr isDated⟩
    have notPurged := hides memory shown
    rw [purges_iff present] at notPurged
    exact (unexpired ((dated memory).mpr isDated)).mp notPurged
  · intro retained memory shown
    rcases shows_iff.mp shown with ⟨present, kept, isDated⟩
    rw [purges_iff present]
    exact (unexpired isDated).mpr (retained memory present kept ((dated memory).mp isDated))

end Expiry

/-- To be kept for a day. -/
def shortLived : MemoryCandidate Rat where
  content := "Observed result"
  confidence := 9 / 10
  importance := 9 / 10
  metadata := [("retention_days", .int 1)]

/-- Two days after it was stored, a memory is shown that a purge would delete. -/
theorem shows_purged :
    ¬ ∀ (actions : List (MemoryAction Rat)) (final : MemoryHistory Rat),
      StepFunction.run (MemoryHistory.step MemoryHistory.plainStore) MemoryHistory.start
        actions = some final →
        ∀ now memory, Shows (fun shared _ _ _ => shared) now final.table memory →
          ¬ MemoryHistory.plainStore.Purges now final.table memory := by
  intro hides
  let now : Int := 172800000000
  have runs : (StepFunction.run (MemoryHistory.step MemoryHistory.plainStore)
      MemoryHistory.start [.store "m1" 0 shortLived]).map (fun history =>
        history.table.list.map fun memory => (decide (memory.status = .deleted),
          pastDate now memory, MemoryHistory.plainStore.expired now memory)) =
      some [(false, false, true)] := by decide +kernel
  rcases Option.map_eq_some_iff.mp runs with ⟨final, reached, same⟩
  have present : (false, false, true) ∈ final.table.list.map fun memory =>
      (decide (memory.status = .deleted), pastDate now memory,
        MemoryHistory.plainStore.expired now memory) := by
    rw [same]
    exact List.mem_singleton_self _
  rcases List.mem_map.mp present with ⟨memory, member, isMemory⟩
  have ⟨kept, rest⟩ := Prod.mk.inj isMemory
  have ⟨dated, isExpired⟩ := Prod.mk.inj rest
  exact hides _ final reached now memory
    (shows_iff.mpr ⟨member, of_decide_eq_false kept, dated⟩) ((purges_iff member).mpr isExpired)

end MemoryStore

end Raphael.Personalization
