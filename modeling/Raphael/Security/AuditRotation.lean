import Raphael.Foundation.SlotTable
import Raphael.Security.AuditLog

/-! # Rotation of the audit log

Any number of `record`, `rotate` and `purge_older_than` calls on one log. Each
repository call and each write of an archive file is one atomic step; only
`record` takes the append lock. -/

namespace Raphael.Security

open Foundation Persistence

/-- Where a call stands. A rotation ends with a record of its own. -/
inductive AuditPhase
  /-- `record` waits for the append lock. -/
  | acquiring (entry : AuditEntry)
  /-- The tail is not cached: the table is listed. -/
  | linking (entry : AuditEntry)
  | creating (entry : AuditEntry) (prevHash : String)
  /-- `purge_older_than` lists the table. -/
  | selecting (isOld : AuditRecord → Bool) (archivePath : String)
  /-- `export` lists the table. -/
  | exporting (archivePath : String)
  /-- `export` writes its file. -/
  | writing (archivePath : String) (exported : List AuditRecord)
  /-- `rotate` lists the table to clear it. -/
  | listing (archivePath : String) (exported : List AuditRecord)
  | deleting (archivePath : String) (count : Nat) (ids : List String)
  /-- `self._tail_hash = None`. -/
  | forgetting (archivePath : String) (count : Nat)

/-- `rotate`'s own record. -/
def rotateEntry (count : Nat) (archivePath : String) : AuditEntry where
  action := "audit.rotate"
  actor := "system"
  actorType := "system"
  result := "archived " ++ toString count ++ " records to " ++ archivePath

structure Auditing (Thread : Type u) where
  table : SnapshotTable AuditRecord
  tailHash : Option String
  /-- The thread that holds the append lock. -/
  lock : Option Thread
  /-- The lines of the archive file at each path. -/
  archives : String → Option (List AuditRecord)
  phase : Thread → Option AuditPhase
  /-- Every record that a call of `record` has returned. -/
  returned : List AuditRecord

/-- A call, or the next step of the call that a thread is in. -/
inductive AuditAction (Thread : Type u)
  | record (thread : Thread) (entry : AuditEntry)
  | rotate (thread : Thread) (archivePath : String)
  /-- `isOld` stands for the comparison of a record's age with the days. -/
  | purgeOlderThan (thread : Thread) (isOld : AuditRecord → Bool) (archivePath : String)
  | advance (thread : Thread)
  | create (thread : Thread) (drawn : AuditDraw)
  /-- The call raises at its repository call or file write. -/
  | fail (thread : Thread)

namespace Auditing

variable {Thread : Type u}

/-- No call is going on, and the records of the table were returned by earlier
ones. -/
def start (table : SnapshotTable AuditRecord)
    (archives : String → Option (List AuditRecord)) : Auditing Thread where
  table := table
  tailHash := none
  lock := none
  archives := archives
  phase := fun _ => none
  returned := table.rows

section Steps

variable [DecidableEq Thread]

def moveTo (state : Auditing Thread) (thread : Thread) (phase : Option AuditPhase) :
    Auditing Thread :=
  { state with phase := Function.update state.phase thread phase }

/-- A thread begins a call when it is in none. -/
def call (state : Auditing Thread) (thread : Thread) (phase : AuditPhase) :
    Option (Auditing Thread) :=
  match state.phase thread with
  | none => some (state.moveTo thread (some phase))
  | some _ => none

/-- `with self._append_lock:` ends. -/
def release (state : Auditing Thread) (thread : Thread) : Auditing Thread :=
  if state.lock = some thread then { state with lock := none } else state

@[simp] theorem release_table (state : Auditing Thread) (thread : Thread) :
    (state.release thread).table = state.table := by
  unfold release
  split <;> rfl

@[simp] theorem release_archives (state : Auditing Thread) (thread : Thread) :
    (state.release thread).archives = state.archives := by
  unfold release
  split <;> rfl

@[simp] theorem release_phase (state : Auditing Thread) (thread : Thread) :
    (state.release thread).phase = state.phase := by
  unfold release
  split <;> rfl

@[simp] theorem release_returned (state : Auditing Thread) (thread : Thread) :
    (state.release thread).returned = state.returned := by
  unfold release
  split <;> rfl

def advance (state : Auditing Thread) (thread : Thread) :
    AuditPhase → Option (Auditing Thread)
  | .acquiring entry =>
      match state.lock with
      | some _ => none
      | none =>
          let next := match state.tailHash with
            | none => .linking entry
            | some tail => .creating entry tail
          some (moveTo { state with lock := some thread } thread (some next))
  | .linking entry =>
      let tail := lastListed state.table
      some (moveTo { state with tailHash := some tail } thread (some (.creating entry tail)))
  | .creating _ _ => none
  | .selecting isOld archivePath =>
      let olds := state.table.list.filter isOld
      if olds.isEmpty then some (state.moveTo thread none)
      else some (state.moveTo thread (some (.exporting archivePath)))
  | .exporting archivePath =>
      let records := sortBy AuditRecord.createdAt state.table.list
      some (state.moveTo thread (some (.writing archivePath records)))
  | .writing archivePath exported =>
      -- The file is opened with "w": what stood there before is gone.
      some (moveTo
        { state with
          archives := Function.update state.archives archivePath (some exported) }
        thread (some (.listing archivePath exported)))
  | .listing archivePath exported =>
      let ids := state.table.list.map AuditRecord.id
      some (state.moveTo thread (some (.deleting archivePath exported.length ids)))
  | .deleting archivePath count [] =>
      some (state.moveTo thread (some (.forgetting archivePath count)))
  | .deleting archivePath count (id :: ids) =>
      some (moveTo { state with table := state.table.delete id } thread
        (some (.deleting archivePath count ids)))
  | .forgetting archivePath count =>
      some (moveTo { state with tailHash := none } thread
        (some (.acquiring (rotateEntry count archivePath))))

/-- `create` and the lines behind it; an id is never drawn a second time. -/
def create (sha256 : String → String) (state : Auditing Thread) (thread : Thread)
    (drawn : AuditDraw) (entry : AuditEntry) (prevHash : String) :
    Option (Auditing Thread) :=
  if state.returned.any (·.id == drawn.id) then none
  else
    match state.table.create drawn.stored (newRecord sha256 prevHash entry drawn) with
    | .error _ => none
    | .ok (table, created) =>
        some (moveTo
          (release
            { state with
              table
              tailHash := some created.recordHash
              returned := state.returned ++ [created] }
            thread)
          thread none)

def step (sha256 : String → String) :
    StepFunction (Auditing Thread) (AuditAction Thread)
  | state, .record thread entry => state.call thread (.acquiring entry)
  | state, .rotate thread archivePath => state.call thread (.exporting archivePath)
  | state, .purgeOlderThan thread isOld archivePath =>
      state.call thread (.selecting isOld archivePath)
  | state, .advance thread =>
      match state.phase thread with
      | none => none
      | some phase => state.advance thread phase
  | state, .create thread drawn =>
      match state.phase thread with
      | some (.creating entry prevHash) =>
          state.create sha256 thread drawn entry prevHash
      | _ => none
  | state, .fail thread =>
      match state.phase thread with
      | none => none
      | some _ => some ((state.release thread).moveTo thread none)

end Steps

/-! ## What is kept -/

/-- The record is a line of the archive file at the path. -/
def Archived (state : Auditing Thread) (archivePath : String) (record : AuditRecord) : Prop :=
  ∃ content, state.archives archivePath = some content ∧ record ∈ content

/-- Every record ever returned is in the table or in an archive file. -/
def NothingLost (state : Auditing Thread) : Prop :=
  ∀ record ∈ state.returned,
    record ∈ state.table.rows ∨ ∃ archivePath, state.Archived archivePath record

/-- A rotation writes its archive where no file stands, and when it lists the table
to clear it, it has exported every record of it. -/
def ClearsExported (state : Auditing Thread) : AuditAction Thread → Prop
  | .advance thread =>
      match state.phase thread with
      | some (.writing archivePath _) => state.archives archivePath = none
      | some (.listing _ exported) => ∀ row ∈ state.table.rows, row ∈ exported
      | _ => True
  | _ => True

instance (state : Auditing Thread) (action : AuditAction Thread) :
    Decidable (state.ClearsExported action) := by
  unfold ClearsExported
  split
  · split <;> infer_instance
  · infer_instance

/-- What a rotation has exported and what it is about to delete is archived. -/
def PhaseOk (state : Auditing Thread) : AuditPhase → Prop
  | .listing archivePath exported => ∀ record ∈ exported, state.Archived archivePath record
  | .deleting archivePath _ ids => ∀ id ∈ ids, ∃ record ∈ state.returned,
      record.id = id ∧ state.Archived archivePath record
  | _ => True

structure Kept (state : Auditing Thread) : Prop where
  rows : ∀ row ∈ state.table.rows, row ∈ state.returned
  distinct : (state.returned.map AuditRecord.id).Nodup
  nothingLost : state.NothingLost
  phases : ∀ thread phase, state.phase thread = some phase → state.PhaseOk phase

/-- The archives and the returned records of one state are those of the other too. -/
structure Grows (before after : Auditing Thread) : Prop where
  archived : ∀ archivePath record, before.Archived archivePath record →
    after.Archived archivePath record
  returned : ∀ record ∈ before.returned, record ∈ after.returned

theorem kept_start (table : SnapshotTable AuditRecord)
    (archives : String → Option (List AuditRecord)) :
    (start table archives : Auditing Thread).Kept where
  rows _ present := present
  distinct := table.distinct
  nothingLost _ present := .inl present
  phases := by simp [start]

theorem PhaseOk.grows {before after : Auditing Thread} {phase : AuditPhase}
    (ok : before.PhaseOk phase) (grows : before.Grows after) : after.PhaseOk phase := by
  cases phase with
  | listing archivePath exported =>
      exact fun record present => grows.archived _ _ (ok record present)
  | deleting archivePath count ids =>
      intro id present
      rcases ok id present with ⟨record, returned, same, archived⟩
      exact ⟨record, grows.returned record returned, same, grows.archived _ _ archived⟩
  | _ => trivial

variable [DecidableEq Thread]

/-- The step of one thread keeps what the other threads rely on. -/
private theorem phases_update {before after : Auditing Thread} {thread : Thread}
    {next : Option AuditPhase} (kept : before.Kept) (grows : before.Grows after)
    (moved : after.phase = Function.update before.phase thread next)
    (ok : ∀ phase, next = some phase → after.PhaseOk phase) :
    ∀ other phase, after.phase other = some phase → after.PhaseOk phase := by
  intro other phase found
  rw [moved] at found
  rcases update_eq_some found with ⟨_, same⟩ | ⟨_, present⟩
  · exact ok phase same
  · exact (kept.phases other phase present).grows grows

/-- A step that writes neither the table nor a file. -/
private theorem Kept.read {before after : Auditing Thread} {thread : Thread}
    {next : Option AuditPhase} (kept : before.Kept)
    (table : after.table = before.table) (archives : after.archives = before.archives)
    (returned : after.returned = before.returned)
    (moved : after.phase = Function.update before.phase thread next)
    (ok : ∀ phase, next = some phase → before.PhaseOk phase) : after.Kept := by
  have archived : ∀ archivePath record, after.Archived archivePath record ↔
      before.Archived archivePath record := by simp [Archived, archives]
  have grows : before.Grows after :=
    ⟨fun _ _ => (archived _ _).mpr, fun _ present => returned ▸ present⟩
  refine ⟨?_, returned ▸ kept.distinct, ?_,
    phases_update kept grows moved fun phase same => (ok phase same).grows grows⟩
  · rw [table, returned]
    exact kept.rows
  · simp only [NothingLost, table, returned, archived]
    exact kept.nothingLost

/-- The archive file is written where none stands. -/
private theorem Kept.write {state : Auditing Thread} {thread : Thread}
    {archivePath : String} {exported : List AuditRecord} (kept : state.Kept)
    (free : state.archives archivePath = none) :
    (moveTo
      { state with
        archives := Function.update state.archives archivePath (some exported) }
      thread (some (.listing archivePath exported))).Kept := by
  have archived : ∀ path record, state.Archived path record →
      Archived (moveTo
        { state with
          archives := Function.update state.archives archivePath (some exported) }
        thread (some (.listing archivePath exported))) path record := by
    rintro path record ⟨content, found, line⟩
    have other : path ≠ archivePath := by
      rintro rfl
      simp [free] at found
    exact ⟨content, by simpa [moveTo, Function.update_of_ne other] using found, line⟩
  have grows := Grows.mk archived fun _ present => present
  refine ⟨kept.rows, kept.distinct, ?_, phases_update kept grows rfl ?_⟩
  · intro record present
    exact (kept.nothingLost record present).imp_right fun ⟨path, line⟩ =>
      ⟨path, archived path record line⟩
  · rintro _ ⟨_⟩ record present
    exact ⟨exported, by simp [moveTo], present⟩

/-- A record that stands in its archive file is deleted. -/
private theorem Kept.delete {state : Auditing Thread} {thread : Thread}
    {archivePath id : String} {count : Nat} {ids : List String} (kept : state.Kept)
    (current : state.phase thread = some (.deleting archivePath count (id :: ids))) :
    (moveTo { state with table := state.table.delete id } thread
      (some (.deleting archivePath count ids))).Kept := by
  have ok := kept.phases thread _ current
  have grows : state.Grows (moveTo { state with table := state.table.delete id } thread
      (some (.deleting archivePath count ids))) :=
    ⟨fun _ _ archived => archived, fun _ present => present⟩
  refine ⟨?_, kept.distinct, ?_, phases_update kept grows rfl ?_⟩
  · exact fun row present => kept.rows row (List.mem_of_mem_filter present)
  · intro record present
    rcases kept.nothingLost record present with inTable | archived
    · by_cases same : record.id = id
      · rcases ok id List.mem_cons_self with ⟨exported, returned, exportedId, archived⟩
        have equal : exported = record :=
          List.inj_on_of_nodup_map kept.distinct returned present (exportedId.trans same.symm)
        exact .inr ⟨archivePath, equal ▸ archived⟩
      · exact .inl (List.mem_filter.mpr ⟨inTable, bne_iff_ne.mpr same⟩)
    · exact .inr archived
  · rintro _ ⟨_⟩ other present
    exact ok other (List.mem_cons_of_mem id present)

/-- What a creation does: one more record, under an id that no other one has. -/
private theorem create_cases {sha256 : String → String} {state next : Auditing Thread}
    {thread : Thread} {drawn : AuditDraw} {entry : AuditEntry} {prevHash : String}
    (created : state.create sha256 thread drawn entry prevHash = some next) :
    ∃ record, next.table.rows = state.table.rows ++ [record] ∧
      next.returned = state.returned ++ [record] ∧
      next.archives = state.archives ∧
      next.phase = Function.update state.phase thread none ∧
      ∀ other ∈ state.returned, other.id ≠ record.id := by
  unfold Auditing.create at created
  split at created
  · cases created
  · next unused =>
      split at created
      · cases created
      · next table record written =>
          rcases SnapshotTable.create_eq_ok written with ⟨touched, rows, _⟩
          cases created
          refine ⟨record, by simp [moveTo, rows], by simp [moveTo], by simp [moveTo],
            by simp [moveTo], ?_⟩
          rw [touched]
          simpa [newRecord, Entity.touch] using unused

private theorem Kept.create {sha256 : String → String} {state next : Auditing Thread}
    {thread : Thread} {drawn : AuditDraw} {entry : AuditEntry} {prevHash : String}
    (kept : state.Kept)
    (created : state.create sha256 thread drawn entry prevHash = some next) : next.Kept := by
  rcases create_cases created with ⟨record, rows, returned, archives, moved, fresh⟩
  have archived : ∀ path line, next.Archived path line ↔ state.Archived path line := by
    simp [Archived, archives]
  have grows : state.Grows next :=
    ⟨fun _ _ => (archived _ _).mpr, fun _ present => by simp [returned, present]⟩
  refine ⟨?_, ?_, ?_, phases_update kept grows moved (by simp)⟩
  · rw [rows, returned]
    intro row present
    simp only [List.mem_append] at present ⊢
    exact present.imp_left (kept.rows row)
  · rw [returned, List.map_append, List.nodup_append]
    refine ⟨kept.distinct, List.nodup_singleton _, ?_⟩
    rintro _ held _ new rfl
    rcases List.mem_map.mp held with ⟨other, present, same⟩
    rw [List.map_singleton, List.mem_singleton] at new
    exact fresh other present (same.trans new)
  · intro other present
    rw [returned, List.mem_append, List.mem_singleton] at present
    rw [rows]
    simp only [List.mem_append, List.mem_singleton, archived]
    rcases present with before | rfl
    · exact (kept.nothingLost other before).imp_left .inl
    · exact .inl (.inr rfl)

/-- The table is listed to be cleared when all of it is exported. -/
private theorem Kept.list {state : Auditing Thread} {thread : Thread}
    {archivePath : String} {exported : List AuditRecord} (kept : state.Kept)
    (current : state.phase thread = some (.listing archivePath exported))
    (covered : ∀ row ∈ state.table.rows, row ∈ exported) :
    (state.moveTo thread (some (.deleting archivePath exported.length
      (state.table.list.map AuditRecord.id)))).Kept := by
  refine kept.read rfl rfl rfl rfl ?_
  rintro _ ⟨_⟩ id present
  rcases List.mem_map.mp present with ⟨row, listed, same⟩
  have inTable := SnapshotTable.mem_list.mp listed
  exact ⟨row, kept.rows row inTable, same,
    kept.phases thread _ current row (covered row inTable)⟩

private theorem Kept.advance {state next : Auditing Thread} {thread : Thread}
    {phase : AuditPhase} (kept : state.Kept) (current : state.phase thread = some phase)
    (clears : state.ClearsExported (.advance thread))
    (advanced : state.advance thread phase = some next) : next.Kept := by
  simp only [ClearsExported, current] at clears
  cases phase with
  | acquiring entry =>
      simp only [Auditing.advance] at advanced
      split at advanced
      · cases advanced
      · cases advanced
        refine kept.read rfl rfl rfl rfl ?_
        rintro _ ⟨_⟩
        split <;> trivial
  | linking entry =>
      cases advanced
      exact kept.read rfl rfl rfl rfl (by rintro _ ⟨_⟩; trivial)
  | creating entry prevHash => cases advanced
  | selecting isOld archivePath =>
      simp only [Auditing.advance] at advanced
      split at advanced
      · cases advanced
        exact kept.read rfl rfl rfl rfl (by simp)
      · cases advanced
        exact kept.read rfl rfl rfl rfl (by rintro _ ⟨_⟩; trivial)
  | exporting archivePath =>
      cases advanced
      exact kept.read rfl rfl rfl rfl (by rintro _ ⟨_⟩; trivial)
  | writing archivePath exported =>
      cases advanced
      exact kept.write clears
  | listing archivePath exported =>
      cases advanced
      exact kept.list current clears
  | deleting archivePath count ids =>
      cases ids with
      | nil =>
          cases advanced
          exact kept.read rfl rfl rfl rfl (by rintro _ ⟨_⟩; trivial)
      | cons id ids =>
          cases advanced
          exact kept.delete current
  | forgetting archivePath count =>
      cases advanced
      exact kept.read rfl rfl rfl rfl (by rintro _ ⟨_⟩; trivial)

private theorem Kept.call {state next : Auditing Thread} {thread : Thread}
    {phase : AuditPhase} (kept : state.Kept)
    (called : state.call thread phase = some next) (ok : state.PhaseOk phase) :
    next.Kept := by
  unfold Auditing.call at called
  split at called
  · cases called
    exact kept.read rfl rfl rfl rfl (by rintro _ ⟨_⟩; exact ok)
  · cases called

theorem Kept.step {sha256 : String → String} {state next : Auditing Thread}
    {action : AuditAction Thread} (kept : state.Kept)
    (clears : state.ClearsExported action)
    (stepped : Auditing.step sha256 state action = some next) : next.Kept := by
  cases action with
  | record thread entry => exact kept.call stepped trivial
  | rotate thread archivePath => exact kept.call stepped trivial
  | purgeOlderThan thread isOld archivePath => exact kept.call stepped trivial
  | advance thread =>
      cases current : state.phase thread with
      | none => simp [Auditing.step, current] at stepped
      | some phase =>
          simp only [Auditing.step, current] at stepped
          exact kept.advance current clears stepped
  | create thread drawn =>
      simp only [Auditing.step] at stepped
      split at stepped
      · exact kept.create stepped
      · cases stepped
  | fail thread =>
      simp only [Auditing.step] at stepped
      split at stepped
      · cases stepped
      · cases stepped
        refine @Kept.read _ _ _ _ thread none kept ?_ ?_ ?_ ?_ ?_ <;> simp [moveTo]

/-- In every run whose rotations clear what they exported, every record ever returned
stays in the table or in an archive file. -/
theorem nothingLost_of_clearsExported {sha256 : String → String}
    {table : SnapshotTable AuditRecord} {archives : String → Option (List AuditRecord)}
    {actions : List (AuditAction Thread)} {state : Auditing Thread}
    (reached : StepFunction.run (step sha256) (start table archives) actions = some state)
    (meets : StepFunction.Meets (step sha256) ClearsExported (start table archives) actions) :
    state.NothingLost :=
  (StepFunction.invariant_of_meets
    (fun _ _ _ kept clears stepped => Kept.step kept clears stepped)
    (kept_start table archives) meets reached).nothingLost

/-! ## Rotations at hand -/

/-- The hashes play no part in what is kept. -/
def noDigest (_ : String) : String := ""

/-- A call of `record` from its start to its end. -/
def recording (thread : Thread) (id : String) (clock : Int) (reads : Nat) :
    List (AuditAction Thread) :=
  [.record thread { action := "tool.execute" }] ++ List.replicate reads (.advance thread) ++
    [.create thread { id, timestamp := clock, created := clock, stored := clock }]

/-- The second thread records between the export and the clearing. -/
def recordDuringRotation : List (AuditAction Bool) :=
  recording false "a" 1 2 ++
    [.rotate false "archive.jsonl", .advance false, .advance false] ++
    recording true "b" 2 1 ++
    [.advance false, .advance false, .advance false]

/-- The record that the second thread was given back is gone. -/
theorem recordDuringRotation_loses :
    ∃ state record,
      StepFunction.run (step noDigest) (start (.empty "audit_log") fun _ => none)
        recordDuringRotation = some state ∧
      record ∈ state.returned ∧ record ∉ state.table.rows ∧
      ∀ archivePath, ¬ state.Archived archivePath record := by
  refine ⟨_, _, rfl, List.mem_cons_of_mem _ List.mem_cons_self, ?_, ?_⟩
  · decide +kernel
  · rintro archivePath ⟨content, found, line⟩
    rcases update_eq_some found with ⟨_, written⟩ | ⟨_, earlier⟩
    · rw [← Option.some.inj written] at line
      revert line
      decide +kernel
    · cases earlier

/-- The second thread records before the rotation begins. -/
def recordBeforeRotation : List (AuditAction Bool) :=
  recording false "a" 1 2 ++ recording true "b" 2 1 ++
    [.rotate false "archive.jsonl", .advance false, .advance false, .advance false,
      .advance false, .advance false]

theorem nothingLost_of_recordBeforeRotation :
    ∃ state, StepFunction.run (step noDigest) (start (.empty "audit_log") fun _ => none)
        recordBeforeRotation = some state ∧ state.table.rows = [] ∧ state.NothingLost :=
  ⟨_, rfl, by decide +kernel, @nothingLost_of_clearsExported Bool _ noDigest (.empty "audit_log")
    (fun _ => none) recordBeforeRotation _ rfl (by decide +kernel)⟩

end Auditing

end Raphael.Security
