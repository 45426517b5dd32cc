import Mathlib.Data.List.Dedup
import Raphael.Core.Secrets
import Raphael.Foundation.Effect
import Raphael.Persistence.SnapshotTable

/-! # The memory store

Memory records over their repository, with the verifier whose receipts make a record
verified. A candidate's metadata is a JSON object. Confidence and importance are
floats: any type with their comparisons. -/

namespace Raphael.Personalization

open Core Foundation Persistence

inductive MemoryType
  | episodic
  | semantic
  | project
  | preference
  | skill
  | experience
  deriving DecidableEq, Repr

def MemoryType.value : MemoryType → String
  | .episodic => "episodic"
  | .semantic => "semantic"
  | .project => "project"
  | .preference => "preference"
  | .skill => "skill"
  | .experience => "experience"

inductive MemoryScope
  | global
  | project
  | task
  | agent
  deriving DecidableEq, Repr

def MemoryScope.value : MemoryScope → String
  | .global => "global"
  | .project => "project"
  | .task => "task"
  | .agent => "agent"

inductive MemoryStatus
  | active
  | archived
  | deleted
  deriving DecidableEq, Repr

structure MemoryCandidate (Score : Type) where
  content : String := ""
  type : MemoryType := .semantic
  source : String := ""
  confidence : Score
  importance : Score
  scope : MemoryScope := .global
  scopeId : String := ""
  reason : String := ""
  metadata : List (String × Json) := []

structure ConsolidationProposal (Score : Type) where
  newCandidate : MemoryCandidate Score
  archiveIds : List String := []
  reason : String := ""

structure Memory (Score : Type) where
  id : String
  createdAt : Int
  updatedAt : Int
  type : MemoryType
  content : String
  source : String
  confidence : Score
  importance : Score
  scope : MemoryScope
  scopeId : String
  status : MemoryStatus := .active
  retentionDays : Option Int := none
  cloudEligible : Bool := false
  provenance : String := "unknown"
  createdBy : String := "unknown"
  verified : Bool := false
  expiresAt : Option Int := none
  metadata : List (String × Json) := []

instance {Score : Type} : Entity (Memory Score) where
  id := Memory.id
  updatedAt := Memory.updatedAt
  touch := fun now memory => { memory with updatedAt := now }
  id_touch := fun _ _ => rfl

structure VerificationReceipt where
  memoryHash : String
  evidenceIds : List String := []
  verifier : String
  method : String
  verifiedAt : Int
  verifierVersion : String := "1"

/-- `model_dump(mode="json")`. -/
def VerificationReceipt.dump (receipt : VerificationReceipt) : Json :=
  .obj [("memory_hash", .str receipt.memoryHash),
    ("evidence_ids", .arr (receipt.evidenceIds.map .str)),
    ("verifier", .str receipt.verifier),
    ("method", .str receipt.method),
    ("verified_at", .str (Moment.jsonText receipt.verifiedAt)),
    ("verifier_version", .str receipt.verifierVersion)]

/-- What the store rests on: the digest, the texts and the comparison that are made of
floats, and the two metadata values that become typed fields of a record. -/
structure MemoryRuntime (Score : Type) where
  sha256 : String → String
  /-- `repr(value)`. -/
  floatText : Score → String
  /-- `f"\x7bvalue:.2f\x7d"`. -/
  fixedText : Score → String
  /-- Microseconds of age against days of retention. -/
  outlives : Int → Int → Bool
  readDays : Json → Except Error (Option Int)
  readMoment : Json → Except Error (Option Int)

/-! ## The verifier -/

section Verifier

variable {Score : Type} (runtime : MemoryRuntime Score)

def candidateHash (candidate : MemoryCandidate Score) : String :=
  runtime.sha256 (Json.canonicalText (.obj [
    ("content", .str candidate.content),
    ("type", .str candidate.type.value),
    ("source", .str candidate.source),
    ("confidence", .float (runtime.floatText candidate.confidence)),
    ("importance", .float (runtime.floatText candidate.importance)),
    ("scope", .str candidate.scope.value),
    ("scope_id", .str candidate.scopeId)]))

/-- `MemoryVerifier.verify`. -/
def MemoryVerifier.verify (now : Int) (candidate : MemoryCandidate Score)
    (evidenceIds : List String) (verifier method : String) :
    Except Error VerificationReceipt :=
  if Text.isBlank verifier then .error (.other "verifier identity is required")
  else if Text.isBlank method then .error (.other "verification method is required")
  else if evidenceIds = [] then .error (.other "at least one evidence id is required")
  else .ok {
    memoryHash := candidateHash runtime candidate
    evidenceIds := evidenceIds
    verifier := verifier
    method := method
    verifiedAt := now }

/-- `MemoryVerifier.valid`. -/
def MemoryVerifier.valid (candidate : MemoryCandidate Score)
    (receipt : VerificationReceipt) : Bool :=
  receipt.memoryHash == candidateHash runtime candidate

end Verifier

/-! ## Keywords -/

def stopwords : List String :=
  ["a", "an", "the", "and", "or", "but", "of", "to", "in", "on", "for", "with", "is",
    "are", "was", "were", "be", "been", "it", "its", "this", "that", "these", "those",
    "as", "at", "by", "from", "into", "over", "after", "such", "no", "not", "only",
    "also", "than", "then", "there", "their", "what", "when", "where", "which", "who",
    "will", "can", "has", "have", "had", "do", "does", "did", "how", "why"]

/-- The words of `[a-z0-9]+` in the lower case of a text; they are split as the tokens
of a key are. -/
def keywords (text : String) : List String :=
  (Secrets.tokens text).dedup.filter fun word => word ∉ stopwords && 2 < word.length

example : keywords "PostgreSQL is the DB of raphael-2" = ["postgresql", "raphael"] := by
  decide +kernel

/-- `len(first & second)`. -/
def overlap (first second : List String) : Nat :=
  (first.filter fun word => second.contains word).length

/-! ## The store -/

/-- `list(value)`. -/
def listOf : Json → Except Error (List Json)
  | .arr items => .ok items
  | .str text => .ok (text.toList.map fun character => .str character.toString)
  | .obj fields => .ok (fields.map fun field => .str field.1)
  | value => .error (.other ("'" ++ value.typeName ++ "' object is not iterable"))

/-- `metadata.pop(key, None)`. -/
def pop (metadata : List (String × Json)) (key : String) : List (String × Json) :=
  metadata.filter (·.1 != key)

structure MemoryStore (Score : Type) where
  runtime : MemoryRuntime Score
  importanceThreshold : Score

/-- Work on the table of memories. -/
abbrev MemoryM (Score : Type) := EStateM Error (SnapshotTable (Memory Score))

namespace MemoryRepository

variable {Score : Type}

def create (now : Int) (memory : Memory Score) : MemoryM Score (Memory Score) :=
  fun table =>
    match table.create now memory with
    | .ok (next, created) => .ok created next
    | .error error => .error error table

def get (memoryId : String) : MemoryM Score (Option (Memory Score)) :=
  fun table => .ok (table.get memoryId) table

def list : MemoryM Score (List (Memory Score)) :=
  fun table => .ok table.list table

def update (now : Int) (memory : Memory Score) : MemoryM Score (Memory Score) :=
  fun table => .ok (table.update now memory).2 (table.update now memory).1

def delete (memoryId : String) : MemoryM Score Bool :=
  fun table => .ok (table.get memoryId).isSome (table.delete memoryId)

end MemoryRepository

namespace MemoryStore

variable {Score : Type}

/-- The active memories of the same scope and type that share two keywords, the most
shared first, then the oldest. -/
def findConflicts (memories : List (Memory Score)) (candidate : MemoryCandidate Score)
    (limit : Nat) : List (Memory Score) :=
  let words := keywords candidate.content
  let hits := memories.filterMap fun memory =>
    if memory.status ≠ .active ∨ memory.scope ≠ candidate.scope ∨
        memory.scopeId ≠ candidate.scopeId ∨ memory.type ≠ candidate.type then none
    else
      let shared := overlap words (keywords memory.content)
      if 2 ≤ shared then some (shared, memory) else none
  let ordered := hits.insertionSort fun first second =>
    second.1 < first.1 ∨ (first.1 = second.1 ∧ first.2.createdAt ≤ second.2.createdAt)
  (ordered.map Prod.snd).take limit

/-- The metadata of a new record. -/
def recordMetadata (candidate : MemoryCandidate Score) (related : List String)
    (receipt : Option VerificationReceipt) : List (String × Json) :=
  let metadata := Json.merge candidate.metadata [("reason", .str candidate.reason),
    ("related", .arr (related.map .str)), ("history", .arr [])]
  match receipt with
  | some receipt => Json.insert metadata "verification_receipt" receipt.dump
  | none => pop metadata "verification_receipt"

/-- `value.get(key)` of the candidate's metadata, as a field of the record. -/
def readField (read : Json → Except Error (Option Int))
    (candidate : MemoryCandidate Score) (key : String) : Except Error (Option Int) :=
  match Json.lookup key candidate.metadata with
  | some value => read value
  | none => .ok none

/-- The record that `_store` makes of an accepted candidate. -/
def newMemory (store : MemoryStore Score) (id : String) (now : Int)
    (candidate : MemoryCandidate Score) (related : List String)
    (receipt : Option VerificationReceipt) : Except Error (Memory Score) := do
  let retentionDays ← readField store.runtime.readDays candidate "retention_days"
  let expiresAt ← readField store.runtime.readMoment candidate "expires_at"
  return {
    id := id
    createdAt := now
    updatedAt := now
    type := candidate.type
    content := candidate.content
    source := candidate.source
    confidence := candidate.confidence
    importance := candidate.importance
    scope := candidate.scope
    scopeId := candidate.scopeId
    status := .active
    retentionDays := retentionDays
    cloudEligible := ((Json.lookup "cloud_eligible" candidate.metadata).map Json.truthy).getD false
    provenance := ((Json.lookup "provenance" candidate.metadata).map Json.text).getD
      (if candidate.source = "" then "unknown" else candidate.source)
    createdBy := ((Json.lookup "created_by" candidate.metadata).map Json.text).getD "unknown"
    verified := receipt.isSome
    expiresAt := expiresAt
    metadata := recordMetadata candidate related receipt }

/-- The fields that a call of `update` gives. -/
structure Revision (Score : Type) where
  content : Option String := none
  confidence : Option Score := none
  importance : Option Score := none

/-- `changed`: some field is given. -/
def Revision.changes (revision : Revision Score) : Bool :=
  revision.content.isSome || revision.confidence.isSome || revision.importance.isSome

/-- What the history keeps of a record. -/
def historyEntry (store : MemoryStore Score) (memory : Memory Score) : Json :=
  .obj [("content", .str memory.content),
    ("confidence", .float (store.runtime.floatText memory.confidence)),
    ("importance", .float (store.runtime.floatText memory.importance)),
    ("verified", .bool memory.verified),
    ("updated_at", .str (Moment.isoformat memory.updatedAt))]

/-- The flag and the receipt go when a field is given. -/
def invalidate (now : Int) (memory : Memory Score) : Memory Score :=
  { memory with
    verified := false
    provenance := "modified:" ++
      (if memory.provenance = "" then "unknown" else memory.provenance)
    metadata := pop (Json.merge memory.metadata
      [("verification_invalidated", .bool true),
        ("verification_invalidated_at", .str (Moment.isoformat now))])
      "verification_receipt" }

/-- A record with the given fields and a new history. -/
def revised (now : Int) (memory : Memory Score) (revision : Revision Score)
    (history : List Json) : Memory Score :=
  let revised : Memory Score := { memory with
    content := revision.content.getD memory.content
    confidence := revision.confidence.getD memory.confidence
    importance := revision.importance.getD memory.importance }
  let revised := if revision.changes then invalidate now revised else revised
  { revised with metadata := Json.insert revised.metadata "history" (.arr history) }

/-- `ResourceNotFoundError("Memory", memory_id)`. -/
def notFound (memoryId : String) : Error :=
  .other ("Memory " ++ Text.repr memoryId ++ " not found")

def archive (now : Int) (memoryId : String) : MemoryM Score (Memory Score) := do
  match ← MemoryRepository.get memoryId with
  | none => throw (notFound memoryId)
  | some memory => MemoryRepository.update now { memory with status := .archived }

def delete (memoryId : String) : MemoryM Score Bool :=
  MemoryRepository.delete memoryId

/-- One of the memories that a proposal names: it exists, and it is active. -/
def consolidated (memoryId : String) : MemoryM Score (Memory Score) := do
  match ← MemoryRepository.get memoryId with
  | none => throw (notFound memoryId)
  | some memory =>
      if memory.status ≠ .active then
        throw (.domainValidation ("memory " ++ memoryId ++ " is not ACTIVE"))
      return memory

/-- The memories lie in one scope, which is that of the candidate. -/
def checkScopes (candidate : MemoryCandidate Score) :
    List (MemoryScope × String) → Except Error Unit
  | [scope] =>
      if (candidate.scope, candidate.scopeId) ≠ scope then
        .error (.domainValidation "consolidated memory must match source scope")
      else .ok ()
  | _ => .error (.domainValidation "cannot consolidate across scopes")

def proposeConsolidation (ids : List String) (newCandidate : MemoryCandidate Score)
    (reason : String) : MemoryM Score (ConsolidationProposal Score) := do
  if ids.length < 2 then
    throw (.domainValidation "consolidation needs at least 2 memories")
  let olds ← ids.mapM consolidated
  MonadExcept.ofExcept (checkScopes newCandidate
    (olds.map fun memory => (memory.scope, memory.scopeId)).dedup)
  return { newCandidate := newCandidate, archiveIds := ids, reason := reason }

/-- The record is past its date, or past its retention. -/
def expired (store : MemoryStore Score) (moment : Int) (memory : Memory Score) : Bool :=
  memory.expiresAt.any (· ≤ moment) ||
    memory.retentionDays.any fun days =>
      store.runtime.outlives (moment - memory.createdAt) days

def purgeExpired (store : MemoryStore Score) (moment : Int) :
    MemoryM Score (List String) := do
  let memories ← MemoryRepository.list
  let purged ← memories.filterM fun memory =>
    if store.expired moment memory then delete memory.id else pure false
  return purged.map Memory.id

variable [LE Score] [LT Score] [DecidableLE Score] [DecidableLT Score] [Zero Score]
  [One Score]

/-- A score of the candidate lies in the unit interval. -/
def checkScore (store : MemoryStore Score) (field : String) (value : Score) :
    Except Error Unit :=
  if 0 ≤ value ∧ value ≤ 1 then .ok ()
  else .error (.domainValidation ("memory candidate " ++ field ++ " " ++
    store.runtime.floatText value ++ " outside [0, 1]"))

def propose (store : MemoryStore Score) (candidate : MemoryCandidate Score) :
    Except Error Unit := do
  if Text.isBlank candidate.content then
    .error (.domainValidation "memory candidate has no content")
  store.checkScore "confidence" candidate.confidence
  store.checkScore "importance" candidate.importance

def evaluate (store : MemoryStore Score) (candidate : MemoryCandidate Score) :
    Bool × String :=
  if candidate.importance < store.importanceThreshold then
    (false, "importance " ++ store.runtime.fixedText candidate.importance ++
      " below threshold " ++ store.runtime.fixedText store.importanceThreshold)
  else if candidate.confidence ≤ 0 then (false, "confidence must be positive")
  else (true, "meets importance and confidence bars")

/-- `_store`. -/
def storeWith (store : MemoryStore Score) (id : String) (now : Int)
    (candidate : MemoryCandidate Score) (receipt : Option VerificationReceipt) :
    MemoryM Score (Memory Score) := do
  MonadExcept.ofExcept (store.propose candidate)
  let (accepted, reason) := store.evaluate candidate
  if !accepted then
    throw (.domainValidation ("candidate rejected: " ++ reason))
  let memories ← MemoryRepository.list
  let related := (findConflicts memories candidate 5).map Memory.id
  let memory ← MonadExcept.ofExcept (store.newMemory id now candidate related receipt)
  MemoryRepository.create now memory

def store (store : MemoryStore Score) (id : String) (now : Int)
    (candidate : MemoryCandidate Score) : MemoryM Score (Memory Score) :=
  store.storeWith id now candidate none

def storeVerified (store : MemoryStore Score) (id : String) (now : Int)
    (candidate : MemoryCandidate Score) (receipt : VerificationReceipt) :
    MemoryM Score (Memory Score) :=
  if MemoryVerifier.valid store.runtime candidate receipt then
    store.storeWith id now candidate (some receipt)
  else throw (.domainValidation "verification receipt does not match candidate content")

/-- A given score lies in the unit interval. -/
def checkRevised (store : MemoryStore Score) (field : String) (given : Option Score) :
    Except Error Unit :=
  match given with
  | none => .ok ()
  | some value =>
      if 0 ≤ value ∧ value ≤ 1 then .ok ()
      else .error (.domainValidation (field ++ " " ++ store.runtime.floatText value ++
        " outside [0, 1]"))

def checkRevision (store : MemoryStore Score) (revision : Revision Score) :
    Except Error Unit := do
  if revision.content.any Text.isBlank then
    .error (.domainValidation "memory content must not be empty")
  store.checkRevised "confidence" revision.confidence
  store.checkRevised "importance" revision.importance

/-- The record that `update` writes. -/
def revise (store : MemoryStore Score) (now : Int) (memory : Memory Score)
    (revision : Revision Score) : Except Error (Memory Score) := do
  let past ← listOf ((Json.lookup "history" memory.metadata).getD (.arr []))
  store.checkRevision revision
  return revised now memory revision (past ++ [store.historyEntry memory])

def update (store : MemoryStore Score) (now : Int) (memoryId : String)
    (revision : Revision Score) : MemoryM Score (Memory Score) := do
  match ← MemoryRepository.get memoryId with
  | none => throw (notFound memoryId)
  | some memory =>
      let revised ← MonadExcept.ofExcept (store.revise now memory revision)
      MemoryRepository.update now revised

def applyConsolidation (store : MemoryStore Score) (id : String) (now : Int)
    (proposal : ConsolidationProposal Score) : MemoryM Score (Memory Score) := do
  let fresh ← proposeConsolidation proposal.archiveIds proposal.newCandidate proposal.reason
  let created ← store.store id now fresh.newCandidate
  let updated ← MemoryRepository.update now { created with
    metadata := Json.insert created.metadata "consolidates"
      (.arr (fresh.archiveIds.map .str)) }
  fresh.archiveIds.forM fun memoryId => do
    let _ ← archive now memoryId
  return updated

end MemoryStore

end Raphael.Personalization
