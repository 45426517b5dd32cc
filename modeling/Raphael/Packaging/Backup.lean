import Raphael.Foundation.Dict
import Raphael.Foundation.FallibleFold
import Raphael.Packaging.Directory

/-! # Backup and restore

A backup is an archive of a database file, further files, and a manifest. A restore replaces
the live file, or copies the rows of selected tables into it. The file system is a map from
paths to contents, and a database one from tables to rows. -/

namespace Raphael.Packaging

open Core Foundation

def userTables : List String :=
  ["tasks", "contexts", "events", "memories", "skills", "agents", "devices", "verifications",
    "personalities", "preferences", "system_snapshots", "usage_events", "usage_patterns",
    "learning_proposals", "agent_definitions", "agent_tasks", "agent_messages", "workspaces",
    "compute_jobs", "device_presence", "audit_log", "learning_policy", "scheduler_jobs"]

/-- The tables that the migrations create with the columns `id`, `snapshot` and
`updated_at`. -/
def snapshotTables : List String :=
  ["tasks", "plans", "memories", "skills", "agents", "devices", "verifications",
    "personalities", "preferences", "system_snapshots", "usage_events", "usage_patterns",
    "learning_proposals", "agent_definitions", "agent_tasks", "agent_messages", "workspaces",
    "compute_jobs", "device_presence", "audit_log", "learning_policy", "scheduler_jobs",
    "approvals"]

/-- The columns of a table; the first is its primary key. -/
def columnsOf (table : String) : List String :=
  if snapshotTables.contains table then ["id", "snapshot", "updated_at"]
  else if table = "contexts" then ["task_id", "snapshot", "updated_at"]
  else if table = "jobs" then ["job_id", "snapshot", "updated_at"]
  else if table = "events" then ["seq", "snapshot"]
  else if table = "meta" then ["key", "value"]
  else if table = "schema_migrations" then ["version", "applied_at"]
  else []

/-- The rows of each table: the other columns under the primary key. -/
structure DatabaseFile where
  tables : String → Dict String (List String)

structure FilePath where
  directory : String
  name : FileName
  deriving DecidableEq

def FileName.suffixed (name : FileName) (suffix : String)
    (plain : '/' ∉ suffix.toList := by decide) : FileName where
  text := name.text ++ suffix
  plain := by
    rw [String.toList_append, List.mem_append, not_or]
    exact ⟨name.plain, plain⟩

inductive Member
  | database (content : DatabaseFile)
  | manifest (db : FileName) (extraDirs : List String)
  | bytes (text : String)

/-- The members of an archive, as they were written. -/
abbrev Archive := List (String × Member)

/-- `archive.read(name)`: of members with one name, the last is found. -/
def Archive.read (archive : Archive) (name : String) : Option Member :=
  (archive.reverse.find? fun member => member.1 == name).map Prod.snd

inductive FileContent
  | database (content : DatabaseFile)
  | archive (members : Archive)
  | member (content : Member)

/-- A member that is written to a file. -/
def Member.file : Member → FileContent
  | .database content => .database content
  | content => .member content

abbrev FileSystem := FilePath → Option FileContent

def FileSystem.write (files : FileSystem) (path : FilePath) (content : FileContent) :
    FileSystem :=
  fun other => if other = path then some content else files other

/-- `path.unlink(missing_ok=True)`. -/
def FileSystem.unlink (files : FileSystem) (path : FilePath) : FileSystem :=
  fun other => if other = path then none else files other

/-- An extra directory: the path that is given, and what is there if it is a directory. -/
structure ExtraDir where
  path : String
  directory : Option Directory

/-- The files of an extra directory, as they are written. -/
def ExtraDir.members (extra : ExtraDir) : List (String × Member) :=
  match extra.directory with
  | none => []
  | some directory => directory.entries.files.map fun file =>
      (arcname (pathName extra.path) file.1.name.text, .bytes file.2)

/-- The archive that `backup_user_data` writes. -/
def backupArchive (name : FileName) (content : DatabaseFile) (extraDirs : List ExtraDir) :
    Archive :=
  (name.text, .database content) :: extraDirs.flatMap ExtraDir.members ++
    [("manifest.json", .manifest name (extraDirs.map ExtraDir.path))]

def backupUserData (files : FileSystem) (dbPath outPath : FilePath)
    (extraDirs : List ExtraDir) : Except String FileSystem :=
  match files dbPath with
  | some (.database content) =>
      .ok (files.write outPath (.archive (backupArchive dbPath.name content extraDirs)))
  | _ => .error "file is not a database"

/-! ## Restoring -/

/-- What a restore meets besides the files: the sidecars that stay locked, and whether a
member can still be read when it is extracted over its own archive. -/
structure RestoreReading where
  locked : FilePath → Bool := fun _ => false
  buffered : Archive → Bool := fun _ => false

/-- The rows that `SELECT id, snapshot, updated_at` finds. -/
def DatabaseFile.select (origin : DatabaseFile) (table : String) :
    Except String (List (String × List String)) :=
  match ["id", "snapshot", "updated_at"].find? fun column =>
      !(columnsOf table).contains column with
  | some column => .error ("no such column: " ++ column)
  | none => .ok (origin.tables table).entries

/-- `INSERT OR REPLACE`, for each row. -/
def DatabaseFile.insertAll (target : DatabaseFile) (table : String)
    (rows : List (String × List String)) : DatabaseFile where
  tables other :=
    if other = table then (target.tables table).update rows else target.tables other

/-- One turn of the loop over the tables. -/
def copyTable (origin : FileContent) (target : DatabaseFile) (table : String) :
    Except String DatabaseFile :=
  if !userTables.contains table then .error ("unknown table " ++ Text.repr table)
  else
    match origin with
    | .database origin => do
        let rows ← origin.select table
        return target.insertAll table rows
    | _ => .error "file is not a database"

/-- The rows are copied in one transaction. -/
def copyTables (files : FileSystem) (extracted livePath : FilePath) (tables : List String) :
    Except String Unit × FileSystem :=
  match files extracted, files livePath with
  | some origin, some (.database target) =>
      match tables.foldlM (copyTable origin) target with
      | .ok restored => (.ok (), files.write livePath (.database restored))
      | .error error => (.error error, files)
  | _, _ => (.error "unable to open database file", files)

/-- The sidecars of the live file go, unless one stays locked. -/
def dropSidecars (reading : RestoreReading) (livePath : FilePath) :
    List FileName → FileSystem → Except String Unit × FileSystem
  | [], files => (.ok (), files)
  | name :: rest, files =>
      let sidecar : FilePath := { livePath with name }
      if reading.locked sidecar then
        (.error ("restore blocked: " ++ name.text ++
          " is locked by a live database connection; close it and retry"), files)
      else dropSidecars reading livePath rest (files.unlink sidecar)

/-- The restore of the whole file. -/
def restoreAll (reading : RestoreReading) (files : FileSystem) (livePath : FilePath)
    (name : FileName) (content : Member) : Except String Unit × FileSystem :=
  let staging : FilePath := { livePath with name := name.suffixed ".incoming" }
  let moved := (files.unlink staging).write livePath content.file
  dropSidecars reading livePath [livePath.name.suffixed "-wal", livePath.name.suffixed "-shm",
    livePath.name.suffixed "-journal"] moved

def restoreTemporary : FileName where
  text := "_restore_tmp.db"

/-- The restore of selected tables, from the file that is extracted beside the live one. -/
def restoreTables (reading : RestoreReading) (files : FileSystem)
    (backupPath livePath : FilePath) (archive : Archive) (name : FileName) (content : Member)
    (tables : List String) : Except String Unit × FileSystem :=
  let extracted : FilePath := { livePath with name }
  if extracted = backupPath ∧ reading.buffered archive = false then
    (.error "EOFError", files.write extracted (.member (.bytes "")))
  else
    let (outcome, files) :=
      copyTables (files.write extracted content.file) extracted livePath tables
    (outcome, (files.unlink { livePath with name := restoreTemporary }).unlink extracted)

def restoreUserData (reading : RestoreReading) (files : FileSystem)
    (backupPath livePath : FilePath) (tables : Option (List String)) :
    Except String Unit × FileSystem :=
  match files backupPath with
  | some (.archive archive) =>
      match archive.read "manifest.json" with
      | some (.manifest name _) =>
          match archive.read name.text with
          | some content =>
              match tables with
              | none => restoreAll reading files livePath name content
              | some tables =>
                  restoreTables reading files backupPath livePath archive name content tables
          | none => (.error "There is no item named in the archive", files)
      | _ => (.error "There is no item named 'manifest.json' in the archive", files)
  | _ => (.error "File is not a zip file", files)

end Raphael.Packaging
