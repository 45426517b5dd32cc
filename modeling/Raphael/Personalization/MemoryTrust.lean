import Mathlib.Algebra.Field.Rat
import Raphael.Foundation.FallibleFold
import Raphael.Foundation.StepSystem
import Raphael.Personalization.MemoryStore

/-! # Trust in stored memories

What makes a record verified, over every sequence of operations on a store that
starts empty. -/

namespace Raphael.Personalization

open Core Foundation Persistence

/-! ## Reading metadata back -/

section Metadata

variable {metadata : List (String × Json)} {key other : String} {value : Json}

private theorem lookup_cons (field : String × Json) :
    Json.lookup key (field :: metadata) =
      if field.1 = key then some field.2 else Json.lookup key metadata := by
  by_cases here : field.1 = key <;> simp [Json.lookup, here]

private theorem lookup_append (field : String × Json)
    (absent : ∀ held ∈ metadata, held.1 ≠ field.1) :
    Json.lookup key (metadata ++ [field]) =
      if key = field.1 then some field.2 else Json.lookup key metadata := by
  induction metadata with
  | nil =>
      rw [List.nil_append, lookup_cons]
      simp only [@eq_comm _ key]
  | cons head rest induction =>
      have later := induction fun held member => absent held (List.mem_cons_of_mem _ member)
      have differs : head.1 ≠ field.1 := absent head List.mem_cons_self
      rw [List.cons_append, lookup_cons, lookup_cons, later]
      by_cases here : head.1 = key
      · subst here
        simp [differs]
      · simp [here]

private theorem lookup_replace :
    Json.lookup other (metadata.map fun field =>
        if field.1 == key then (key, value) else field) =
      if other = key ∧ ∃ field ∈ metadata, field.1 = key then some value
      else Json.lookup other metadata := by
  induction metadata with
  | nil => simp [Json.lookup]
  | cons head rest induction =>
      rw [List.map_cons, lookup_cons, lookup_cons, induction]
      by_cases written : head.1 = key
      · by_cases same : other = key
        · simp [written, same]
        · simp [written, same, Ne.symm same]
      · simp only [List.exists_mem_cons_iff, written, false_or, beq_iff_eq, if_false]
        by_cases here : head.1 = other
        · subst here
          simp [written]
        · simp only [here, if_false]

/-- A dict reads back what was written under a key, and the other keys as before. -/
private theorem lookup_insert :
    Json.lookup other (Json.insert metadata key value) =
      if other = key then some value else Json.lookup other metadata := by
  unfold Json.insert
  split
  case isTrue present =>
    simp only [List.any_eq_true, beq_iff_eq] at present
    rw [lookup_replace]
    by_cases same : other = key
    · rw [if_pos ⟨same, present⟩, if_pos same]
    · rw [if_neg fun both => same both.1, if_neg same]
  case isFalse absent =>
    apply lookup_append (key, value)
    intro held member same
    exact absent (List.any_eq_true.mpr ⟨held, member, beq_iff_eq.mpr same⟩)

end Metadata

/-! ## Trusted records -/

section Trust

variable {Score : Type}

/-- The content and the bound fields of a record. -/
def Memory.asCandidate (memory : Memory Score) : MemoryCandidate Score where
  content := memory.content
  type := memory.type
  source := memory.source
  confidence := memory.confidence
  importance := memory.importance
  scope := memory.scope
  scopeId := memory.scopeId

/-- The metadata holds a receipt that the verifier accepts for the record. -/
def Memory.CarriesReceipt (runtime : MemoryRuntime Score) (memory : Memory Score) : Prop :=
  ∃ receipt, Json.lookup "verification_receipt" memory.metadata = some receipt.dump ∧
    MemoryVerifier.valid runtime memory.asCandidate receipt = true

/-- A verified record carries its receipt, and its id is one of the `current` ones. -/
def Memory.Trusted (runtime : MemoryRuntime Score) (current : String → Prop)
    (memory : Memory Score) : Prop :=
  memory.verified = true → memory.CarriesReceipt runtime ∧ current memory.id

/-- Every record is trusted. -/
def AllTrusted (runtime : MemoryRuntime Score) (current : String → Prop)
    (table : SnapshotTable (Memory Score)) : Prop :=
  ∀ memory ∈ table.rows, memory.Trusted runtime current

variable {runtime : MemoryRuntime Score} {current : String → Prop}
  {table next : SnapshotTable (Memory Score)} {memory : Memory Score} {now : Int}

/-- A record that differs only in what a receipt does not cover. -/
private theorem Memory.Trusted.of_same {other : Memory Score}
    (trusted : memory.Trusted runtime current)
    (verified : other.verified = true → memory.verified = true)
    (id : other.id = memory.id) (bound : other.asCandidate = memory.asCandidate)
    (receipt : Json.lookup "verification_receipt" other.metadata =
      Json.lookup "verification_receipt" memory.metadata) :
    other.Trusted runtime current := by
  intro isVerified
  have ⟨carries, isCurrent⟩ := trusted (verified isVerified)
  rcases carries with ⟨held, found, valid⟩
  constructor
  · exact ⟨held, receipt.trans found, by rw [bound]; exact valid⟩
  · rw [id]
    exact isCurrent

private theorem Memory.Trusted.touch (trusted : memory.Trusted runtime current) :
    (Entity.touch now memory).Trusted runtime current :=
  trusted.of_same (fun verified => verified) rfl rfl rfl

private theorem AllTrusted.create {created : Memory Score}
    (trusted : AllTrusted runtime current table) (fresh : memory.Trusted runtime current)
    (written : table.create now memory = .ok (next, created)) :
    AllTrusted runtime current next := by
  have ⟨touched, rows, _⟩ := SnapshotTable.create_eq_ok written
  intro held member
  rw [rows] at member
  rcases List.mem_append.mp member with before | new
  · exact trusted held before
  · rw [List.mem_singleton.mp new, touched]
    exact fresh.touch

/-- A row behind an update is the touched record, or a row from before. -/
private theorem mem_update {held : Memory Score}
    (member : held ∈ (table.update now memory).1.rows) :
    held = Entity.touch now memory ∨ (held ∈ table.rows ∧ held.id ≠ memory.id) := by
  have found := SnapshotTable.get_eq_some_iff.mpr ⟨member, rfl⟩
  rw [SnapshotTable.get_update] at found
  split at found
  case isTrue =>
    cases found
    exact .inl rfl
  case isFalse differs => exact .inr ⟨(SnapshotTable.get_eq_some_iff.mp found).1, differs⟩

private theorem AllTrusted.update (trusted : AllTrusted runtime current table)
    (fresh : memory.Trusted runtime current) :
    AllTrusted runtime current (table.update now memory).1 := by
  intro held member
  rcases mem_update member with rfl | ⟨before, _⟩
  · exact fresh.touch
  · exact trusted held before

private theorem AllTrusted.delete (trusted : AllTrusted runtime current table)
    (memoryId : String) : AllTrusted runtime current (table.delete memoryId) :=
  fun held member => trusted held (List.mem_of_mem_filter member)

private theorem AllTrusted.of_get {memoryId : String}
    (trusted : AllTrusted runtime current table)
    (found : table.get memoryId = some memory) : memory.Trusted runtime current :=
  trusted memory (SnapshotTable.get_eq_some_iff.mp found).1

/-! ## What the operations write -/

variable {store : MemoryStore Score} {candidate : MemoryCandidate Score}
  {receipt : Option VerificationReceipt} {newId : String}

private theorem lookup_recordMetadata (candidate : MemoryCandidate Score)
    (related : List String) (receipt : VerificationReceipt) :
    Json.lookup "verification_receipt"
      (MemoryStore.recordMetadata candidate related (some receipt)) = some receipt.dump := by
  simp [MemoryStore.recordMetadata, lookup_insert]

/-- A new record is verified under a receipt for its candidate only. -/
private theorem newMemory_trusted {related : List String}
    (accepted : ∀ given, receipt = some given →
      MemoryVerifier.valid store.runtime candidate given = true)
    (isCurrent : receipt.isSome = true → current newId)
    (made : store.newMemory newId now candidate related receipt = .ok memory) :
    memory.Trusted store.runtime current ∧ memory.id = newId := by
  simp only [MemoryStore.newMemory] at made
  rcases except_bind_eq_ok.mp made with ⟨retentionDays, _, made⟩
  rcases except_bind_eq_ok.mp made with ⟨expiresAt, _, made⟩
  obtain rfl := Except.ok.inj made
  constructor
  · intro verified
    rcases Option.isSome_iff_exists.mp verified with ⟨given, rfl⟩
    exact ⟨⟨given, lookup_recordMetadata _ _ _, accepted given rfl⟩, isCurrent verified⟩
  · rfl

private theorem revised_unverified {revision : MemoryStore.Revision Score}
    (changes : revision.changes = true) (history : List Json) :
    (MemoryStore.revised now memory revision history).verified = false := by
  simp [MemoryStore.revised, changes, MemoryStore.invalidate]

/-- Without a field only the history grows. -/
private theorem revised_of_unchanged {revision : MemoryStore.Revision Score}
    (unchanged : revision.changes = false) (history : List Json) :
    MemoryStore.revised now memory revision history = { memory with
      metadata := Json.insert memory.metadata "history" (.arr history) } := by
  have noField : revision.content = none ∧ revision.confidence = none ∧
      revision.importance = none := by
    simpa [MemoryStore.Revision.changes, and_assoc] using unchanged
  simp [MemoryStore.revised, unchanged, noField]

private theorem Memory.Trusted.revised (trusted : memory.Trusted runtime current)
    (revision : MemoryStore.Revision Score) (history : List Json) :
    (MemoryStore.revised now memory revision history).Trusted runtime current := by
  cases changes : revision.changes with
  | true =>
      intro verified
      rw [revised_unverified changes] at verified
      cases verified
  | false =>
      rw [revised_of_unchanged changes]
      exact trusted.of_same (fun verified => verified) rfl rfl (by simp [lookup_insert])

private theorem revised_id (revision : MemoryStore.Revision Score) (history : List Json) :
    (MemoryStore.revised now memory revision history).id = memory.id := by
  unfold MemoryStore.revised
  cases revision.changes <;> rfl

/-! A memory that is read is trusted; what is written must be. -/

private theorem preserves_get {memoryId : String} {answer : Type}
    {rest : Option (Memory Score) → MemoryM Score answer}
    (second : ∀ found, (∀ memory, found = some memory → memory.Trusted runtime current) →
      Preserves (AllTrusted runtime current) (rest found)) :
    Preserves (AllTrusted runtime current) (MemoryRepository.get memoryId >>= rest) := by
  apply Preserves.bind_of (fun _ trusted => trusted) _ second
  intro table found after trusted read memory isMemory
  cases read
  exact trusted.of_get isMemory

private theorem preserves_update (fresh : memory.Trusted runtime current) :
    Preserves (AllTrusted runtime current) (MemoryRepository.update now memory) :=
  fun _ trusted => trusted.update fresh

private theorem preserves_archive (now : Int) (memoryId : String) :
    Preserves (AllTrusted runtime current)
      (MemoryStore.archive now memoryId) := by
  apply preserves_get
  intro found trusted
  cases found with
  | none => exact Preserves.throw _
  | some memory =>
      apply preserves_update
      exact (trusted memory rfl).of_same (fun verified => verified) rfl rfl rfl

private theorem preserves_consolidated (memoryId : String) :
    Preserves (AllTrusted runtime current)
      (MemoryStore.consolidated memoryId) := by
  apply preserves_get
  intro found _
  cases found with
  | none => exact Preserves.throw _
  | some memory =>
      by_cases isActive : memory.status ≠ .active
      · simp only [if_pos isActive]
        exact (Preserves.throw _).bind fun _ => Preserves.pure _
      · simp only [if_neg isActive]
        exact (Preserves.pure _).bind fun _ => Preserves.pure _

private theorem preserves_proposeConsolidation (ids : List String) (reason : String) :
    Preserves (AllTrusted runtime current)
      (MemoryStore.proposeConsolidation ids candidate reason) := by
  have remaining : Preserves (AllTrusted runtime current) (do
      let olds ← ids.mapM MemoryStore.consolidated
      MonadExcept.ofExcept (MemoryStore.checkScopes candidate
        (olds.map fun memory => (memory.scope, memory.scopeId)).dedup)
      return { newCandidate := candidate, archiveIds := ids, reason := reason } :
        MemoryM Score (ConsolidationProposal Score)) := by
    apply (Preserves.mapM preserves_consolidated ids).bind
    intro olds
    exact (Preserves.ofExcept _).bind fun _ => Preserves.pure _
  unfold MemoryStore.proposeConsolidation
  by_cases tooFew : ids.length < 2
  · simp only [if_pos tooFew]
    exact (Preserves.throw _).bind fun _ => remaining
  · simp only [if_neg tooFew]
    exact remaining

private theorem preserves_purgeExpired (store : MemoryStore Score) (moment : Int) :
    Preserves (AllTrusted runtime current) (store.purgeExpired moment) := by
  have listed : Preserves (AllTrusted runtime current)
      MemoryRepository.list := fun _ trusted => trusted
  apply listed.bind
  intro memories
  refine (Preserves.filterM (fun memory => ?_) memories).bind fun _ => Preserves.pure _
  by_cases isExpired : store.expired moment memory = true
  · rw [if_pos isExpired]
    exact fun _ trusted => trusted.delete memory.id
  · rw [if_neg isExpired]
    exact Preserves.pure _

variable [LE Score] [LT Score] [DecidableLE Score] [DecidableLT Score] [Zero Score]
  [One Score]

/-- What `_store` does: it raises and leaves the table, or creates one record. -/
theorem storeWith_cases (store : MemoryStore Score) (id : String) (now : Int)
    (candidate : MemoryCandidate Score) (receipt : Option VerificationReceipt)
    (table : SnapshotTable (Memory Score)) :
    (∃ error, store.storeWith id now candidate receipt table = .error error table) ∨
      ∃ related memory created next,
        store.newMemory id now candidate related receipt = .ok memory ∧
          table.create now memory = .ok (next, created) ∧
          store.storeWith id now candidate receipt table = .ok created next := by
  unfold MemoryStore.storeWith
  cases proposed : store.propose candidate with
  | error error => exact .inl ⟨error, ofExcept_bind_error rfl⟩
  | ok _ =>
      rw [ofExcept_bind_ok rfl]
      cases evaluated : store.evaluate candidate with
      | mk accepted reason =>
          cases accepted with
          | false => exact .inl ⟨_, rfl⟩
          | true =>
              let related := (MemoryStore.findConflicts table.list candidate 5).map Memory.id
              cases made : store.newMemory id now candidate related receipt with
              | error error => exact .inl ⟨error, ofExcept_bind_error made⟩
              | ok memory =>
                  have goesOn := @ofExcept_bind_ok _ _ _ _ _ _
                    (MemoryRepository.create now) table made
                  cases written : table.create now memory with
                  | error error =>
                      apply Or.inl
                      refine ⟨error, goesOn.trans ?_⟩
                      simp only [MemoryRepository.create, written]
                  | ok pair =>
                      apply Or.inr
                      refine ⟨related, memory, pair.2, pair.1, made, written, goesOn.trans ?_⟩
                      simp only [MemoryRepository.create, written]

omit [LT Score] [DecidableLT Score] in
/-- What `update` does: it raises and leaves the table, or writes the revised record. -/
private theorem update_cases (store : MemoryStore Score) (now : Int) (memoryId : String)
    (revision : MemoryStore.Revision Score) (table : SnapshotTable (Memory Score)) :
    (∃ error, store.update now memoryId revision table = .error error table) ∨
      ∃ memory revised, table.get memoryId = some memory ∧
        store.revise now memory revision = .ok revised ∧
        store.update now memoryId revision table =
          .ok (table.update now revised).2 (table.update now revised).1 := by
  unfold MemoryStore.update
  rw [bind_apply]
  simp only [MemoryRepository.get]
  cases table.get memoryId with
  | none => exact .inl ⟨_, rfl⟩
  | some memory =>
      cases revised : store.revise now memory revision with
      | error error => exact .inl ⟨error, ofExcept_bind_error revised⟩
      | ok written => exact .inr ⟨memory, written, rfl, revised, ofExcept_bind_ok revised⟩

omit [LT Score] [DecidableLT Score] in
private theorem revise_eq_ok {revision : MemoryStore.Revision Score}
    {written : Memory Score} (made : store.revise now memory revision = .ok written) :
    ∃ history, written = MemoryStore.revised now memory revision history := by
  unfold MemoryStore.revise at made
  rcases except_bind_eq_ok.mp made with ⟨entries, _, made⟩
  rcases except_bind_eq_ok.mp made with ⟨_, _, made⟩
  obtain rfl := Except.ok.inj made
  exact ⟨_, rfl⟩

/-- `_store` keeps every record trusted, under a receipt for the candidate or under
none. -/
private theorem preserves_storeWith
    (accepted : ∀ given, receipt = some given →
      MemoryVerifier.valid store.runtime candidate given = true)
    (isCurrent : receipt.isSome = true → current newId) :
    Preserves (AllTrusted store.runtime current)
      (store.storeWith newId now candidate receipt) := by
  intro table trusted
  unfold leaves
  rcases storeWith_cases store newId now candidate receipt table with
    ⟨error, raises⟩ | ⟨related, memory, created, next, made, written, returns⟩
  · rw [raises]
    exact trusted
  · rw [returns]
    exact trusted.create (newMemory_trusted accepted isCurrent made).1 written

/-- A record that was stored without a receipt is unverified. -/
private theorem store_unverified {created : Memory Score}
    (returns : store.store newId now candidate table = .ok created next) :
    created.verified = false := by
  rcases storeWith_cases store newId now candidate none table with
    ⟨error, raises⟩ | ⟨related, memory, held, _, made, written, stored⟩
  · rw [MemoryStore.store, raises] at returns
    cases returns
  · rw [MemoryStore.store, stored] at returns
    cases returns
    -- Under no receipt the record is trusted whatever the current ids are.
    have trusted : memory.Trusted store.runtime fun _ => False :=
      (newMemory_trusted (fun _ absent => by cases absent) nofun made).1
    have touched := (SnapshotTable.create_eq_ok written).1
    subst touched
    change memory.verified = false
    by_contra verified
    exact (trusted (by simpa using verified)).2

omit [LT Score] [DecidableLT Score] in
private theorem preserves_revision (store : MemoryStore Score) (memoryId : String)
    (revision : MemoryStore.Revision Score) :
    Preserves (AllTrusted runtime current) (store.update now memoryId revision) := by
  intro table trusted
  unfold leaves
  rcases update_cases store now memoryId revision table with
    ⟨error, raises⟩ | ⟨memory, written, found, made, returns⟩
  · rw [raises]
    exact trusted
  · rw [returns]
    rcases revise_eq_ok made with ⟨history, rfl⟩
    exact trusted.update ((trusted.of_get found).revised revision history)

private theorem preserves_applyConsolidation (store : MemoryStore Score) (id : String)
    (now : Int) (proposal : ConsolidationProposal Score) :
    Preserves (AllTrusted store.runtime current)
      (store.applyConsolidation id now proposal) := by
  apply (preserves_proposeConsolidation _ _).bind
  intro fresh
  have stores : Preserves (AllTrusted store.runtime current)
      (store.store id now fresh.newCandidate) :=
    preserves_storeWith (fun _ absent => by cases absent) nofun
  apply stores.bind_of (fun _ _ _ _ returns => store_unverified returns)
  intro created unverified
  have rewrites : Preserves (AllTrusted store.runtime current)
      (MemoryRepository.update now { created with
        metadata := Json.insert created.metadata "consolidates"
          (.arr (fresh.archiveIds.map .str)) }) := by
    apply preserves_update
    intro verified
    change created.verified = true at verified
    rw [unverified] at verified
    cases verified
  apply rewrites.bind
  intro updated
  apply Preserves.bind
  · apply Preserves.forM
    intro memoryId _
    exact (preserves_archive now memoryId).bind fun _ => Preserves.pure _
  · exact fun _ => Preserves.pure _

end Trust

/-! ## Runs of the store -/

inductive MemoryAction (Score : Type)
  | store (id : String) (now : Int) (candidate : MemoryCandidate Score)
  | storeVerified (id : String) (now : Int) (candidate : MemoryCandidate Score)
      (receipt : VerificationReceipt)
  | update (now : Int) (memoryId : String) (revision : MemoryStore.Revision Score)
  | archive (now : Int) (memoryId : String)
  | delete (memoryId : String)
  | applyConsolidation (id : String) (now : Int) (proposal : ConsolidationProposal Score)
  | purgeExpired (moment : Int)

/-- The table, and the ids whose records `update` has written since they were verified,
each with whether a field was given. -/
structure MemoryHistory (Score : Type) where
  table : SnapshotTable (Memory Score)
  updates : List (String × Bool)

namespace MemoryHistory

variable {Score : Type}

def start : MemoryHistory Score where
  table := .empty "memories"
  updates := []

/-- Every verified record carries a receipt for what it holds now, and no call of
`update` has written it since. -/
def TrustsVerified (runtime : MemoryRuntime Score) (history : MemoryHistory Score) : Prop :=
  AllTrusted runtime (fun id => ∀ changes, (id, changes) ∉ history.updates) history.table

/-- The same, for the calls of `update` that gave a field. -/
def TrustsUnrevised (runtime : MemoryRuntime Score) (history : MemoryHistory Score) :
    Prop :=
  AllTrusted runtime (fun id => (id, true) ∉ history.updates) history.table

variable [LE Score] [LT Score] [DecidableLE Score] [DecidableLT Score] [Zero Score]
  [One Score] {store : MemoryStore Score} {history next : MemoryHistory Score}

def step (store : MemoryStore Score) :
    StepFunction (MemoryHistory Score) (MemoryAction Score)
  | history, .store id now candidate =>
      some { history with table := leaves (store.store id now candidate) history.table }
  | history, .storeVerified id now candidate receipt =>
      match store.storeVerified id now candidate receipt history.table with
      | .ok _ table => some
          { table := table
            updates := history.updates.filter (·.1 != id) }
      | .error _ table => some { history with table := table }
  | history, .update now memoryId revision =>
      match store.update now memoryId revision history.table with
      | .ok _ table => some
          { table := table
            updates := (memoryId, revision.changes) :: history.updates }
      | .error _ table => some { history with table := table }
  | history, .archive now memoryId =>
      some { history with table := leaves (MemoryStore.archive now memoryId) history.table }
  | history, .delete memoryId =>
      some { history with table := leaves (MemoryStore.delete memoryId) history.table }
  | history, .applyConsolidation id now proposal =>
      some { history with
        table := leaves (store.applyConsolidation id now proposal) history.table }
  | history, .purgeExpired moment =>
      some { history with table := leaves (store.purgeExpired moment) history.table }

private theorem storeVerified_trusts {id : String} {now : Int}
    {candidate : MemoryCandidate Score} {receipt : VerificationReceipt}
    (trusts : history.TrustsUnrevised store.runtime)
    (stepped : step store history (.storeVerified id now candidate receipt) = some next) :
    next.TrustsUnrevised store.runtime := by
  simp only [step, MemoryStore.storeVerified] at stepped
  by_cases valid : MemoryVerifier.valid store.runtime candidate receipt = true
  · simp only [if_pos valid] at stepped
    rcases storeWith_cases store id now candidate (some receipt) history.table with
      ⟨error, raises⟩ | ⟨related, memory, created, table, made, written, returns⟩
    · rw [raises] at stepped
      cases stepped
      exact trusts
    · rw [returns] at stepped
      cases stepped
      -- The record is current from here on; the others are what they were.
      have others : AllTrusted store.runtime
          (fun other => (other, true) ∉ history.updates.filter (·.1 != id))
          history.table := by
        intro held member verified
        have ⟨carries, isCurrent⟩ := trusts held member verified
        exact ⟨carries, fun listed => isCurrent (List.mem_of_mem_filter listed)⟩
      apply others.create (newMemory_trusted _ (fun _ => by simp) made).1 written
      intro given isReceipt
      cases isReceipt
      exact valid
  · simp only [if_neg valid] at stepped
    cases stepped
    exact trusts

omit [LT Score] [DecidableLT Score] in
private theorem update_trusts {memoryId : String} {now : Int}
    {revision : MemoryStore.Revision Score} {table : SnapshotTable (Memory Score)}
    {updated : Memory Score} (trusts : history.TrustsUnrevised store.runtime)
    (returns : store.update now memoryId revision history.table = .ok updated table) :
    TrustsUnrevised store.runtime
      { table := table
        updates := (memoryId, revision.changes) :: history.updates } := by
  rcases update_cases store now memoryId revision history.table with
    ⟨error, raises⟩ | ⟨memory, written, found, made, writes⟩
  · rw [raises] at returns
    cases returns
  · rw [writes] at returns
    cases returns
    rcases revise_eq_ok made with ⟨entries, rfl⟩
    have ownId : memory.id = memoryId := SnapshotTable.id_of_get found
    intro held member verified
    rcases mem_update member with rfl | ⟨before, differs⟩
    · change (MemoryStore.revised now memory revision entries).verified = true at verified
      cases changes : revision.changes with
      | true =>
          rw [revised_unverified changes] at verified
          cases verified
      | false =>
          have asBefore : (MemoryStore.revised now memory revision entries).Trusted _ _ :=
            (trusts.of_get found).revised revision entries
          have ⟨carries, isCurrent⟩ := asBefore.touch verified
          refine ⟨carries, fun listed => ?_⟩
          rcases List.mem_cons.mp listed with new | old
          · cases (Prod.mk.inj new).2
          · exact isCurrent old
    · have ⟨carries, isCurrent⟩ := trusts held before verified
      refine ⟨carries, fun listed => ?_⟩
      rcases List.mem_cons.mp listed with new | old
      · rw [revised_id, ownId] at differs
        exact differs (Prod.mk.inj new).1
      · exact isCurrent old

private theorem step_trusts (history : MemoryHistory Score) (action : MemoryAction Score)
    (next : MemoryHistory Score) (trusts : history.TrustsUnrevised store.runtime)
    (stepped : step store history action = some next) :
    next.TrustsUnrevised store.runtime := by
  cases action with
  | store id now candidate =>
      cases stepped
      exact preserves_storeWith (fun _ absent => by cases absent) nofun _ trusts
  | storeVerified id now candidate receipt => exact storeVerified_trusts trusts stepped
  | update now memoryId revision =>
      simp only [step] at stepped
      split at stepped
      case h_1 updated table returns =>
        cases stepped
        exact update_trusts trusts returns
      case h_2 error table raises =>
        cases stepped
        exact (preserves_revision store memoryId revision).raised trusts raises
  | archive now memoryId =>
      cases stepped
      exact preserves_archive now memoryId _ trusts
  | delete memoryId =>
      cases stepped
      exact AllTrusted.delete trusts memoryId
  | applyConsolidation id now proposal =>
      cases stepped
      exact preserves_applyConsolidation store id now proposal _ trusts
  | purgeExpired moment =>
      cases stepped
      exact preserves_purgeExpired store moment _ trusts

/-- In every store that is reached from the empty one, a verified record carries a
receipt that the verifier accepts for what it holds, and no call of `update` has given
it a field since it was verified. -/
theorem verified_carries_receipt (store : MemoryStore Score)
    (actions : List (MemoryAction Score)) (final : MemoryHistory Score)
    (reached : StepFunction.run (step store) start actions = some final) :
    final.TrustsUnrevised store.runtime := by
  apply StepFunction.invariant_of_run step_trusts _ reached
  intro memory member
  cases member

/-- Floats written as fractions, under a digest that is the text itself. -/
def plainRuntime : MemoryRuntime Rat where
  sha256 := id
  floatText := toString
  fixedText := toString
  outlives := fun age days => days * 86400000000 < age
  readDays := fun
    | .int days => .ok (some days)
    | _ => .ok none
  readMoment := fun
    | .int moment => .ok (some moment)
    | _ => .ok none

def plainStore : MemoryStore Rat where
  runtime := plainRuntime
  importanceThreshold := 3 / 10

def observation : MemoryCandidate Rat where
  content := "Observed result"
  confidence := 9 / 10
  importance := 9 / 10
  metadata := [("verified", .bool true), ("verification_receipt", .str "mine")]

def observed : VerificationReceipt where
  memoryHash := candidateHash plainRuntime observation
  evidenceIds := ["event:1"]
  verifier := "system-verifier"
  method := "observed-state"
  verifiedAt := 0

/-- The ids of the records with their flags, and the calls of `update`. -/
def outline (history : MemoryHistory Rat) : List (String × Bool) × List (String × Bool) :=
  (history.table.rows.map fun memory => (memory.id, memory.verified), history.updates)

/-- A verified observation is stored, and the record is revised. -/
theorem verified_carries_receipt_revised :
    ∃ final, StepFunction.run (step plainStore) start
        [.storeVerified "m1" 0 observation observed,
          .update 1 "m1" { content := some "Tampered result" }] = some final ∧
      final.outline = ([("m1", false)], [("m1", true)]) ∧
      final.TrustsUnrevised plainRuntime := by
  have runs : (StepFunction.run (step plainStore) start
      [.storeVerified "m1" 0 observation observed,
        .update 1 "m1" { content := some "Tampered result" }]).map outline =
      some ([("m1", false)], [("m1", true)]) := by decide +kernel
  rcases Option.map_eq_some_iff.mp runs with ⟨final, reached, same⟩
  exact ⟨final, reached, same, verified_carries_receipt plainStore _ final reached⟩

/-- A call of `update` without a field writes the record anew and leaves it verified. -/
theorem empty_update_stays_verified :
    ¬ ∀ (actions : List (MemoryAction Rat)) (final : MemoryHistory Rat),
      StepFunction.run (step plainStore) start actions = some final →
        final.TrustsVerified plainRuntime := by
  intro trustsAlways
  have runs : (StepFunction.run (step plainStore) start
      [.storeVerified "m1" 0 observation observed, .update 1 "m1" {}]).map outline =
      some ([("m1", true)], [("m1", false)]) := by decide +kernel
  rcases Option.map_eq_some_iff.mp runs with ⟨final, reached, same⟩
  have ⟨rows, updates⟩ := Prod.mk.inj same
  have present : ("m1", true) ∈ final.table.rows.map fun memory =>
      (memory.id, memory.verified) := by
    rw [rows]
    exact List.mem_singleton_self _
  rcases List.mem_map.mp present with ⟨memory, member, isRecord⟩
  have ⟨ownId, verified⟩ := Prod.mk.inj isRecord
  have current := (trustsAlways _ final reached memory member verified).2 false
  rw [ownId, updates] at current
  exact current (List.mem_singleton_self _)

end MemoryHistory

end Raphael.Personalization
