import Raphael.Core.Json
import Raphael.Foundation.HashChain
import Raphael.Foundation.StepSystem
import Raphael.Persistence.SnapshotTable

/-! # The audit log

Records of who did what, each with the hash of the one before it. The tail of the
chain is cached in memory; a new log over the same table finds it again in the
order of `updated_at`. -/

namespace Raphael.Security

open Core Foundation Persistence

/-- What a caller of `record` tells. -/
structure AuditEntry where
  action : String
  actor : String := ""
  actorType : String := ""
  taskId : String := ""
  agentId : String := ""
  resource : String := ""
  decision : String := ""
  risk : String := ""
  authorization : String := ""
  result : String := ""
  correlationId : String := ""
  deriving DecidableEq, Repr

structure AuditRecord extends AuditEntry where
  id : String
  createdAt : Int
  updatedAt : Int
  timestamp : Int
  prevHash : String := "GENESIS"
  recordHash : String := ""
  deriving DecidableEq, Repr

instance : Entity AuditRecord where
  id := AuditRecord.id
  updatedAt := AuditRecord.updatedAt
  touch now record := { record with updatedAt := now }
  id_touch _ _ := rfl

namespace AuditRecord

/-- `_body_of`: every field but `record_hash` and `updated_at`. -/
def body (record : AuditRecord) : String :=
  (Json.obj
    [("id", .str record.id), ("created_at", .str (Moment.text record.createdAt)),
      ("timestamp", .str (Moment.text record.timestamp)), ("actor", .str record.actor),
      ("actor_type", .str record.actorType), ("task_id", .str record.taskId),
      ("agent_id", .str record.agentId), ("action", .str record.action),
      ("resource", .str record.resource), ("decision", .str record.decision),
      ("risk", .str record.risk), ("authorization", .str record.authorization),
      ("result", .str record.result), ("correlation_id", .str record.correlationId),
      ("prev_hash", .str record.prevHash)]).canonicalText

/-- `_chain_hash` of the record's link and body. -/
def chainHash (sha256 : String → String) (record : AuditRecord) : String :=
  sha256 (record.prevHash ++ "|" ++ record.body)

def hashOk (sha256 : String → String) (record : AuditRecord) : Bool :=
  record.recordHash == record.chainHash sha256

/-- The fields that the hash covers. -/
def hashed (record : AuditRecord) : AuditRecord :=
  { record with recordHash := "", updatedAt := 0 }

end AuditRecord

/-- What a call of `record` draws: the id, and the clock at each of its readings. -/
structure AuditDraw where
  id : String
  timestamp : Int
  created : Int
  stored : Int

/-- The record of an entry behind a hash, with its own hash. -/
def newRecord (sha256 : String → String) (prevHash : String) (entry : AuditEntry)
    (drawn : AuditDraw) : AuditRecord :=
  let record : AuditRecord :=
    { entry with
      id := drawn.id
      createdAt := drawn.created
      updatedAt := drawn.created
      timestamp := drawn.timestamp
      prevHash }
  { record with recordHash := record.chainHash sha256 }

/-- `previous[-1].record_hash if previous else "GENESIS"`. -/
def lastListed (table : SnapshotTable AuditRecord) : String :=
  match table.list.getLast? with
  | some record => record.recordHash
  | none => "GENESIS"

structure AuditLog where
  table : SnapshotTable AuditRecord
  tailHash : Option String := none

namespace AuditLog

variable (sha256 : String → String)

def new : AuditLog := { table := .empty "audit_log" }

/-- A new log over the same table. -/
def restart (log : AuditLog) : AuditLog := { log with tailHash := none }

/-- The hash the next record is linked to. -/
def prevHash (log : AuditLog) : String := log.tailHash.getD (lastListed log.table)

def record (log : AuditLog) (entry : AuditEntry) (drawn : AuditDraw) :
    AuditLog × Except Error AuditRecord :=
  let prevHash := log.prevHash
  match log.table.create drawn.stored (newRecord sha256 prevHash entry drawn) with
  | .ok (table, created) => ({ table, tailHash := some created.recordHash }, .ok created)
  | .error error => ({ log with tailHash := some prevHash }, .error error)

/-- The text under which a finding of the walk is reported. -/
def report : HashChain.Finding → Bool × String
  | .whole => (true, "")
  | .fork => (false, "fork detected")
  | .heads => (false, "multiple chain heads")
  | .gap => (false, "gap in chain")

/-- `verify` over what the table lists; `none` when the walk has not ended in so
many turns. -/
def verifyRecords (turns : Nat) (records : List AuditRecord) : Option (Bool × String) :=
  match records.find? fun record => !record.hashOk sha256 with
  | some record => some (false, record.id)
  | none =>
      (HashChain.inspect AuditRecord.prevHash AuditRecord.recordHash "GENESIS" turns
        records).map report

def verify (log : AuditLog) (turns : Nat) : Option (Bool × String) :=
  verifyRecords sha256 turns log.table.list

/-- One call, or a restart of the process. -/
inductive Action
  | record (entry : AuditEntry) (drawn : AuditDraw)
  | restart

def step (log : AuditLog) : Action → Option AuditLog
  | .record entry drawn => some (log.record sha256 entry drawn).1
  | .restart => some log.restart

end AuditLog

/-- The digest tells the records apart, and from the start of the chain. -/
structure TellsApart (sha256 : String → String) (records : List AuditRecord) : Prop where
  injective : ∀ left ∈ records, ∀ right ∈ records,
    left.chainHash sha256 = right.chainHash sha256 → left.hashed = right.hashed
  fresh : ∀ record ∈ records, record.chainHash sha256 ≠ "GENESIS"

namespace AuditLog

/-! ## What one call does -/

variable {sha256 : String → String} {log : AuditLog} {entry : AuditEntry}
  {drawn : AuditDraw}

/-- Either the record is refused and only the tail is looked up, or it stands
behind the others. -/
theorem record_cases (sha256 : String → String) (log : AuditLog) (entry : AuditEntry)
    (drawn : AuditDraw) :
    (∃ error, log.record sha256 entry drawn =
        ({ log with tailHash := some log.prevHash }, .error error)) ∨
      ∃ table created, log.record sha256 entry drawn =
          ({ table, tailHash := some created.recordHash }, .ok created) ∧
        table.rows = log.table.rows ++ [created] ∧ created.prevHash = log.prevHash ∧
        created.hashOk sha256 = true := by
  unfold record
  dsimp only
  cases written : log.table.create drawn.stored (newRecord sha256 log.prevHash entry drawn) with
  | error error => exact .inl ⟨error, rfl⟩
  | ok result =>
      rcases result with ⟨table, created⟩
      rcases SnapshotTable.create_eq_ok written with ⟨touched, rows, _⟩
      refine .inr ⟨table, created, rfl, rows, ?_, ?_⟩
      · rw [touched]
        rfl
      · rw [touched]
        exact beq_self_eq_true _

end AuditLog

end Raphael.Security
