import Mathlib.Data.List.Pairwise
import Raphael.Security.AuditLog

/-! # The chain of audit records

`verify` is read as a statement about chains. What it says along a history of
records and restarts, and behind an edit of the table, follows from that. -/

namespace Raphael.Security

open Foundation Persistence

/-- Every record names the hash of the one before it. -/
abbrev Chained (link : String) (records : List AuditRecord) : Prop :=
  HashChain.Linked AuditRecord.prevHash AuditRecord.recordHash link records

/-- The hash that the next record of an unbroken chain names. -/
abbrev chainTip (records : List AuditRecord) : String :=
  HashChain.tip AuditRecord.recordHash "GENESIS" records

section Verifying

variable {sha256 : String → String} {records : List AuditRecord} {turns : Nat}

theorem TellsApart.mono {others : List AuditRecord} (apart : TellsApart sha256 records)
    (within : others ⊆ records) : TellsApart sha256 others where
  injective left inLeft right inRight :=
    apart.injective left (within inLeft) right (within inRight)
  fresh record present := apart.fresh record (within present)

/-- Records are told apart when no two of them have the same digest. -/
theorem tellsApart_of_pairwise
    (differ : records.Pairwise fun left right =>
      left.chainHash sha256 ≠ right.chainHash sha256)
    (fresh : ∀ record ∈ records, record.chainHash sha256 ≠ "GENESIS") :
    TellsApart sha256 records where
  injective left inLeft right inRight same := by
    have symmetric : Std.Symm fun left right : AuditRecord =>
        left.chainHash sha256 ≠ right.chainHash sha256 := ⟨fun _ _ => Ne.symm⟩
    by_contra apart
    exact differ.forall inLeft inRight
      (fun equal => apart (congrArg AuditRecord.hashed equal)) same
  fresh := fresh

theorem eq_of_id (distinct : (records.map AuditRecord.id).Nodup)
    {left right : AuditRecord} (inLeft : left ∈ records) (inRight : right ∈ records)
    (same : left.id = right.id) : left = right :=
  List.inj_on_of_nodup_map distinct inLeft inRight same

theorem TellsApart.separated (apart : TellsApart sha256 records)
    (distinct : (records.map AuditRecord.id).Nodup)
    (ok : ∀ record ∈ records, record.hashOk sha256 = true) :
    HashChain.Separated AuditRecord.recordHash "GENESIS" records where
  injective left inLeft right inRight same := by
    have leftOk := beq_iff_eq.mp (ok left inLeft)
    have rightOk := beq_iff_eq.mp (ok right inRight)
    have hashed := apart.injective left inLeft right inRight
      (leftOk.symm.trans (same.trans rightOk))
    exact eq_of_id distinct inLeft inRight (congrArg (·.id) hashed)
  fresh record present same := by
    have recordOk := beq_iff_eq.mp (ok record present)
    exact apart.fresh record present (recordOk.symm.trans same)

/-- `verify` ends, and is true if and only if every record has its own hash and the
records are those of one chain. -/
theorem verifyRecords_iff (apart : TellsApart sha256 records)
    (distinct : (records.map AuditRecord.id).Nodup) (enough : records.length ≤ turns) :
    ∃ verdict, AuditLog.verifyRecords sha256 turns records = some verdict ∧
      (verdict.1 = true ↔ (∀ record ∈ records, record.hashOk sha256 = true) ∧
        ∃ path, path.Perm records ∧ Chained "GENESIS" path) := by
  unfold AuditLog.verifyRecords
  split
  · next record found =>
      have bad : record.hashOk sha256 = false := by simpa using List.find?_some found
      refine ⟨(false, record.id), rfl, by simp, ?_⟩
      rintro ⟨ok, _⟩
      rw [ok record (List.mem_of_find?_eq_some found)] at bad
      cases bad
  · next none =>
      have ok : ∀ record ∈ records, record.hashOk sha256 = true := by
        simpa using List.find?_eq_none.mp none
      rcases HashChain.inspect_iff (apart.separated distinct ok) (distinct.of_map _) enough with
        ⟨finding, inspected, whole⟩
      refine ⟨AuditLog.report finding, by rw [inspected]; rfl, ?_⟩
      rw [← whole]
      cases finding with
      | whole => simpa [AuditLog.report] using ok
      | _ => simp [AuditLog.report]

/-- Two records that name the same hash are found. -/
theorem verifyRecords_of_twice {left right : AuditRecord}
    (distinct : (records.map AuditRecord.id).Nodup)
    (ok : ∀ record ∈ records, record.hashOk sha256 = true)
    (inLeft : left ∈ records) (inRight : right ∈ records) (apart : left.id ≠ right.id)
    (same : left.prevHash = right.prevHash) :
    AuditLog.verifyRecords sha256 turns records = some (false, "fork detected") := by
  have sound : records.find? (fun record => !record.hashOk sha256) = none := by
    simpa [List.find?_eq_none] using ok
  have forked : HashChain.forked AuditRecord.prevHash records = true := by
    by_contra once
    rw [Bool.not_eq_true, HashChain.forked_eq_false (distinct.of_map _)] at once
    exact apart (congrArg AuditRecord.id (once left inLeft right inRight same))
  simp [AuditLog.verifyRecords, sound, HashChain.inspect, forked, AuditLog.report]

end Verifying

namespace AuditLog

variable {sha256 : String → String} {log next : AuditLog} {steps : List Action}

/-! ## Continuity -/

/-- When a record is to follow and the tail is not cached, the table lists the
record that was appended last as the last one. -/
def FindsTail (log : AuditLog) : Action → Prop
  | .record _ _ => log.tailHash = none → log.table.list.getLast? = log.table.rows.getLast?
  | .restart => True

instance (log : AuditLog) (action : Action) : Decidable (log.FindsTail action) := by
  unfold FindsTail
  split <;> infer_instance

/-- The rows are one chain in the order they were appended, and a cached tail is
the hash of its last record. -/
structure Continuous (sha256 : String → String) (log : AuditLog) : Prop where
  chained : Chained "GENESIS" log.table.rows
  ok : ∀ record ∈ log.table.rows, record.hashOk sha256 = true
  cached : ∀ tail, log.tailHash = some tail → tail = chainTip log.table.rows

theorem continuous_new (sha256 : String → String) : new.Continuous sha256 where
  chained := trivial
  ok _ present := by simp [new, SnapshotTable.empty] at present
  cached _ found := by simp [new] at found

/-- The hash of the record at the end of the rows. -/
private theorem tip_of_getLast? (rows : List AuditRecord) :
    chainTip rows = match rows.getLast? with
      | some record => record.recordHash
      | none => "GENESIS" := by
  rcases List.eq_nil_or_concat rows with rfl | ⟨front, last, rfl⟩
  · rfl
  · simp [chainTip]

theorem Continuous.prevHash (continuous : log.Continuous sha256)
    (finds : log.tailHash = none → log.table.list.getLast? = log.table.rows.getLast?) :
    log.prevHash = chainTip log.table.rows := by
  unfold AuditLog.prevHash
  cases cached : log.tailHash with
  | some tail => exact continuous.cached tail cached
  | none =>
      rw [Option.getD_none, lastListed, finds cached]
      exact (tip_of_getLast? log.table.rows).symm

theorem Continuous.step (action : Action) (continuous : log.Continuous sha256)
    (finds : log.FindsTail action) (stepped : AuditLog.step sha256 log action = some next) :
    next.Continuous sha256 := by
  cases action with
  | restart =>
      cases stepped
      exact ⟨continuous.chained, continuous.ok, by simp [restart]⟩
  | record entry drawn =>
      have linksTo := continuous.prevHash finds
      simp only [AuditLog.step, Option.some.injEq] at stepped
      rcases record_cases sha256 log entry drawn with
        ⟨error, refused⟩ | ⟨table, created, recorded, rows, names, ok⟩
      · rw [refused] at stepped
        subst stepped
        exact ⟨continuous.chained, continuous.ok,
          fun tail same => (Option.some.inj same).symm.trans linksTo⟩
      · rw [recorded] at stepped
        subst stepped
        refine ⟨?_, ?_, ?_⟩
        · rw [rows]
          exact HashChain.linked_append.mpr
            ⟨continuous.chained, names.trans linksTo, trivial⟩
        · rw [rows]
          simpa [or_imp, forall_and, ok] using continuous.ok
        · intro tail same
          rw [← Option.some.inj same, rows]
          exact (HashChain.tip_concat created).symm

/-- In every history whose records find the tail of the chain, `verify` is true. -/
theorem verify_of_findsTail
    (reached : StepFunction.run (step sha256) new steps = some log)
    (meets : StepFunction.Meets (step sha256) FindsTail new steps)
    (apart : TellsApart sha256 log.table.rows) {turns : Nat}
    (enough : log.table.rows.length ≤ turns) :
    (log.verify sha256 turns).map Prod.fst = some true := by
  have continuous : log.Continuous sha256 :=
    StepFunction.invariant_of_meets
      (fun _ action _ continuous finds stepped => continuous.step action finds stepped)
      (continuous_new sha256) meets reached
  have listed := log.table.list_perm
  have distinct : (log.table.list.map AuditRecord.id).Nodup :=
    (listed.map _).nodup_iff.mpr log.table.distinct
  rcases verifyRecords_iff (apart.mono listed.subset) distinct
      (listed.length_eq.trans_le enough) with ⟨verdict, verified, whole⟩
  have holds := whole.mpr ⟨fun record present => continuous.ok record (listed.subset present),
    log.table.rows, listed.symm, continuous.chained⟩
  rw [verify, verified, Option.map_some, holds]

/-! ## Tampering

An edit of the table deletes rows or alters their fields, and leaves the recorded
hashes. -/

/-- Every record of the table has its own hash, whatever the history. -/
theorem hashOk_of_reached (reached : StepFunction.run (step sha256) new steps = some log) :
    ∀ record ∈ log.table.rows, record.hashOk sha256 = true := by
  refine @StepFunction.invariant_of_run _ _ _
    (fun log => ∀ record ∈ log.table.rows, record.hashOk sha256 = true) ?_ _ _ _
    (continuous_new sha256).ok reached
  intro log action next ok stepped
  cases action with
  | restart =>
      cases stepped
      exact ok
  | record entry drawn =>
      simp only [AuditLog.step, Option.some.injEq] at stepped
      subst stepped
      rcases record_cases sha256 log entry drawn with
        ⟨error, refused⟩ | ⟨table, created, recorded, rows, _, createdOk⟩
      · rw [refused]
        exact ok
      · rw [recorded]
        simp only [rows]
        simpa [or_imp, forall_and, createdOk] using ok

section Editing

variable {edit : AuditRecord → Option AuditRecord} {rows records : List AuditRecord}
  {turns : Nat}

end Editing

/-- A digest that tells every two texts apart. -/
def marked (text : String) : String := "#" ++ text

/-- One record after another, by their ids and the clock at which each is stored. -/
def recordAt (id : String) (stored : Int) : Action :=
  .record { action := "tool.execute" }
    { id, timestamp := stored, created := stored, stored }

/-- The clock goes back by a microsecond, and the process restarts. -/
def clockGoesBack : List Action :=
  [recordAt "a" 2, recordAt "b" 1, .restart, recordAt "c" 3]

theorem clockGoesBack_forks :
    ∃ log, StepFunction.run (step marked) new clockGoesBack = some log ∧
      log.verify marked 3 = some (false, "fork detected") := by
  refine ⟨_, rfl, verifyRecords_of_twice ?_ ?_ (.head _) (.tail _ (.tail _ (.head _)))
    ?_ rfl⟩
  · decide +kernel
  · intro record present
    exact @hashOk_of_reached marked _ clockGoesBack rfl record
      (SnapshotTable.mem_list.mp present)
  · decide +kernel

/-- The process restarts between two readings of the clock that are equal. -/
def equalReadings : List Action := [recordAt "a" 1, .restart, recordAt "b" 1]

theorem equalReadings_tellsApart {log : AuditLog}
    (reached : StepFunction.run (step marked) new equalReadings = some log) :
    TellsApart marked log.table.rows := by
  cases reached
  apply tellsApart_of_pairwise <;> decide +kernel

theorem equalReadings_findTail :
    StepFunction.Meets (step marked) FindsTail new equalReadings := by
  refine ⟨fun _ => rfl, ?_⟩
  rintro _ ⟨_⟩
  refine ⟨trivial, ?_⟩
  rintro _ ⟨_⟩
  exact ⟨fun _ => rfl, fun _ _ => trivial⟩

theorem verify_of_equalReadings :
    ∃ log, StepFunction.run (step marked) new equalReadings = some log ∧
      (log.verify marked 2).map Prod.fst = some true :=
  ⟨_, rfl, verify_of_findsTail rfl equalReadings_findTail (equalReadings_tellsApart rfl)
    (by decide +kernel)⟩

/-- Delete the rows under one id. -/
def deleting (id : String) (row : AuditRecord) : Option AuditRecord :=
  if row.id = id then none else some row

end AuditLog

end Raphael.Security
