import Raphael.Packaging.Backup

/-! # Selective restores

The restore of selected tables extracts the archived file beside the live one and deletes it
afterwards, and copies the columns `id`, `snapshot` and `updated_at`. It does what it is for
exactly if neither the names nor the columns collide. -/

namespace Raphael.Packaging

open Foundation

/-! ## What is read of a backup -/

theorem read_manifest (name : FileName) (content : DatabaseFile) (extraDirs : List ExtraDir) :
    (backupArchive name content extraDirs).read "manifest.json" =
      some (.manifest name (extraDirs.map ExtraDir.path)) := by
  simp [Archive.read, backupArchive]

def Member.isDatabase : Member → Bool
  | .database _ => true
  | _ => false

/-- Another member than a database has the name. -/
def Archive.shadows (archive : Archive) (name : FileName) : Bool :=
  archive.any fun member => member.1 == name.text && !member.2.isDatabase

theorem members_not_database {extra : ExtraDir} {member : String × Member}
    (inside : member ∈ extra.members) : member.2.isDatabase = false := by
  unfold ExtraDir.members at inside
  split at inside
  · cases inside
  · rcases List.mem_map.mp inside with ⟨file, _, rfl⟩
    rfl

/-- The archived database is found under its name, unless another member has the same. -/
theorem read_database (name : FileName) (content : DatabaseFile) (extraDirs : List ExtraDir) :
    ∃ found, (backupArchive name content extraDirs).read name.text = some found ∧
      ((backupArchive name content extraDirs).shadows name = false → found = .database content) ∧
      ((backupArchive name content extraDirs).shadows name = true →
        found.isDatabase = false) := by
  generalize isRest : extraDirs.flatMap ExtraDir.members ++
    [("manifest.json", Member.manifest name (extraDirs.map ExtraDir.path))] = rest
  have archive : backupArchive name content extraDirs = (name.text, .database content) :: rest := by
    rw [← isRest]
    rfl
  have others : ∀ member ∈ rest, member.2.isDatabase = false := by
    intro member inside
    rw [← isRest, List.mem_append] at inside
    rcases inside with inside | last
    · rcases List.mem_flatMap.mp inside with ⟨extra, _, inside⟩
      exact members_not_database inside
    · rw [List.mem_singleton.mp last]
      rfl
  have first : (Member.database content).isDatabase = true := rfl
  rw [archive]
  simp only [Archive.read, Archive.shadows, List.reverse_cons, List.find?_append, List.any_cons,
    first, Bool.not_true, Bool.and_false, Bool.false_or, List.find?_singleton,
    beq_self_eq_true, if_true]
  cases last : rest.reverse.find? fun member => member.1 == name.text with
  | some member =>
      have inside : member ∈ rest := List.mem_reverse.mp (List.mem_of_find?_eq_some last)
      have named := List.find?_some last
      refine ⟨member.2, rfl, fun unshadowed => ?_, fun _ => others member inside⟩
      rw [List.any_eq_false] at unshadowed
      exact absurd (by simp [others member inside, by simpa using named]) (unshadowed member inside)
  | none =>
      refine ⟨.database content, rfl, fun _ => rfl, fun shadowed => ?_⟩
      rw [List.find?_eq_none] at last
      rcases List.any_eq_true.mp shadowed with ⟨member, inside, named⟩
      rw [Bool.and_eq_true] at named
      exact absurd named.1 (last member (List.mem_reverse.mpr inside))

/-! ## What is copied -/

variable {origin target restored : DatabaseFile} {tables : List String} {table : String}

/-- The rows of a table are all in another. -/
def Holds (origin : DatabaseFile) (table : String) (target : DatabaseFile) : Prop :=
  ∀ row ∈ (origin.tables table).entries, row ∈ (target.tables table).entries

/-- The tables that have no column `id`, or are not the user's. -/
theorem copyTable_ok_iff (origin target : DatabaseFile) (user : table ∈ userTables) :
    (∃ next, copyTable (.database origin) target table = .ok next) ↔
      table ≠ "contexts" ∧ table ≠ "events" := by
  have columns : ∀ table ∈ userTables, (["id", "snapshot", "updated_at"].find? fun column =>
      !(columnsOf table).contains column) = none ↔ table ≠ "contexts" ∧ table ≠ "events" := by
    decide
  rw [← columns table user]
  have known : userTables.contains table = true := by simpa using user
  simp only [copyTable, known, Bool.not_true, Bool.false_eq_true, if_false,
    DatabaseFile.select]
  cases ["id", "snapshot", "updated_at"].find? fun column =>
      !(columnsOf table).contains column with
  | none => exact iff_of_true ⟨_, rfl⟩ rfl
  | some column =>
      refine iff_of_false ?_ (Option.some_ne_none column)
      rintro ⟨next, impossible⟩
      cases impossible

theorem copyTable_eq_ok
    (copied : copyTable (.database origin) target table = .ok restored) :
    restored = target.insertAll table (origin.tables table).entries := by
  unfold copyTable at copied
  split at copied
  · cases copied
  · rcases except_bind_eq_ok.mp copied with ⟨rows, selected, done⟩
    cases done
    unfold DatabaseFile.select at selected
    split at selected
    · cases selected
    · cases selected
      rfl

theorem holds_insertAll (origin target : DatabaseFile) (table : String) :
    Holds origin table (target.insertAll table (origin.tables table).entries) := by
  intro row member
  simp only [DatabaseFile.insertAll, if_true]
  exact Dict.get_eq_some_iff.mp
    (Dict.get_update_of_mem (origin.tables table).distinct member)

/-- What was copied stays so. -/
theorem Holds.insertAll {other : String} (holds : Holds origin other target) :
    Holds origin other (target.insertAll table (origin.tables table).entries) := by
  by_cases same : other = table
  · subst same
    exact holds_insertAll origin target other
  · intro row member
    simp only [DatabaseFile.insertAll, if_neg same]
    exact holds row member

/-- The loop over the tables leaves the others alone, and all rows of its own are there
afterwards. -/
theorem copied_of_foldlM
    (copied : tables.foldlM (copyTable (.database origin)) target = .ok restored) :
    (∀ table, table ∉ tables → restored.tables table = target.tables table) ∧
      ∀ table ∈ tables, Holds origin table restored := by
  constructor
  · intro table unselected
    refine foldlM_keeps (fun state => state.tables table = target.tables table) ?_ rfl copied
    intro other selected state next same stepped
    rw [copyTable_eq_ok stepped]
    have differs : table ≠ other := by
      rintro rfl
      exact unselected selected
    simp only [DatabaseFile.insertAll, if_neg differs]
    exact same
  · intro table selected
    rcases List.append_of_mem selected with ⟨before, behind, rfl⟩
    rw [List.foldlM_append] at copied
    rcases except_bind_eq_ok.mp copied with ⟨reached, _, copied⟩
    rw [List.foldlM_cons] at copied
    rcases except_bind_eq_ok.mp copied with ⟨next, stepped, copied⟩
    have holds : Holds origin table next := by
      rw [copyTable_eq_ok stepped]
      exact holds_insertAll origin reached table
    refine foldlM_keeps (Holds origin table) ?_ holds copied
    intro other _ state next holds stepped
    rw [copyTable_eq_ok stepped]
    exact holds.insertAll

theorem foldlM_ok_iff (origin target : DatabaseFile)
    (user : ∀ table ∈ tables, table ∈ userTables) :
    (∃ restored, tables.foldlM (copyTable (.database origin)) target = .ok restored) ↔
      "contexts" ∉ tables ∧ "events" ∉ tables := by
  induction tables generalizing target with
  | nil => exact iff_of_true ⟨target, rfl⟩ ⟨List.not_mem_nil, List.not_mem_nil⟩
  | cons table rest induction =>
      have columns := copyTable_ok_iff origin target (user table List.mem_cons_self)
      have later := fun next => induction next fun other member =>
        user other (List.mem_cons_of_mem _ member)
      rw [List.mem_cons, List.mem_cons, not_or, not_or]
      constructor
      · rintro ⟨restored, copied⟩
        rw [List.foldlM_cons] at copied
        rcases except_bind_eq_ok.mp copied with ⟨next, stepped, copied⟩
        have own := columns.mp ⟨next, stepped⟩
        have others := (later next).mp ⟨restored, copied⟩
        exact ⟨⟨own.1.symm, others.1⟩, own.2.symm, others.2⟩
      · rintro ⟨⟨contexts, first⟩, events, second⟩
        rcases columns.mpr ⟨Ne.symm contexts, Ne.symm events⟩ with ⟨next, stepped⟩
        rcases (later next).mpr ⟨first, second⟩ with ⟨restored, copied⟩
        refine ⟨restored, ?_⟩
        rw [List.foldlM_cons, stepped]
        exact copied

/-! ## What is restored -/

/-- The restore succeeds, the live file stays, with the rows that it had in the tables that
are not selected and those of the backup in the others; and where it raises, the live file
is as it was. -/
def SelectivelyRestores (backup live : DatabaseFile) (livePath : FilePath)
    (tables : List String) (result : Except String Unit × FileSystem) : Prop :=
  (result.1 = .ok () ∧ ∃ restored, result.2 livePath = some (.database restored) ∧
    (∀ table, table ∉ tables → restored.tables table = live.tables table) ∧
      ∀ table ∈ tables, Holds backup table restored) ∧
  ∀ error, result.1 = .error error → result.2 livePath = some (.database live)

/-- Nothing collides: the names of the archived and the live file and of the temporary one,
the archive and what is extracted of it, the archived file and the other members, and the
columns of the tables. -/
structure Restorable (reading : RestoreReading) (name : FileName) (archive : Archive)
    (backupPath livePath : FilePath) (tables : List String) : Prop where
  apart : name ≠ livePath.name
  kept : livePath.name ≠ restoreTemporary
  readable : { livePath with name } = backupPath → reading.buffered archive = true
  whole : archive.shadows name = true → tables = []
  columns : "contexts" ∉ tables ∧ "events" ∉ tables

section Restore

variable {reading : RestoreReading} {files : FileSystem} {backupPath livePath : FilePath}
  {name : FileName} {backup live : DatabaseFile} {extraDirs : List ExtraDir}

/-- What is extracted under the name of the archived file. -/
structure Extracted (archive : Archive) (name : FileName) (backup : DatabaseFile)
    (content : Member) : Prop where
  whole : archive.shadows name = false → content = .database backup
  shadowed : archive.shadows name = true → content.isDatabase = false

theorem restoreUserData_backup
    (stored : files backupPath = some (.archive (backupArchive name backup extraDirs))) :
    ∃ content, Extracted (backupArchive name backup extraDirs) name backup content ∧
      restoreUserData reading files backupPath livePath (some tables) =
        restoreTables reading files backupPath livePath (backupArchive name backup extraDirs)
          name content tables := by
  rcases read_database name backup extraDirs with ⟨content, found, whole, shadowed⟩
  refine ⟨content, ⟨whole, shadowed⟩, ?_⟩
  simp only [restoreUserData, stored, read_manifest, found]

/-- What is opened beside the live file. -/
theorem write_extracted {extracted : FilePath} (content : Member)
    (liveHere : files livePath = some (.database live)) (apart : extracted ≠ livePath) :
    files.write extracted content.file extracted = some content.file ∧
      files.write extracted content.file livePath = some (.database live) :=
  ⟨if_pos rfl, (if_neg (Ne.symm apart)).trans liveHere⟩

theorem copyTables_ok {extracted : FilePath} {content : Member}
    (liveHere : files livePath = some (.database live)) (apart : extracted ≠ livePath)
    (copied : tables.foldlM (copyTable content.file) live = .ok restored) :
    copyTables (files.write extracted content.file) extracted livePath tables =
      (.ok (), (files.write extracted content.file).write livePath (.database restored)) := by
  rcases write_extracted content liveHere apart with ⟨here, there⟩
  simp only [copyTables, here, there, copied]

theorem copyTables_error {extracted : FilePath} {content : Member} {error : String}
    (liveHere : files livePath = some (.database live)) (apart : extracted ≠ livePath)
    (failed : tables.foldlM (copyTable content.file) live = .error error) :
    copyTables (files.write extracted content.file) extracted livePath tables =
      (.error error, files.write extracted content.file) := by
  rcases write_extracted content liveHere apart with ⟨here, there⟩
  simp only [copyTables, here, there, failed]

/-- A live file that is deleted is not restored. -/
theorem not_selectivelyRestores_of_deleted {result : Except String Unit × FileSystem}
    (deleted : result.2 livePath = none) :
    ¬ SelectivelyRestores backup live livePath tables result := by
  rintro ⟨⟨_, restored, here, _⟩, _⟩
  rw [deleted] at here
  cases here

theorem not_selectivelyRestores_of_error {result : Except String Unit × FileSystem}
    (error : String) (failed : result.1 = .error error) :
    ¬ SelectivelyRestores backup live livePath tables result := by
  rintro ⟨⟨done, _⟩, _⟩
  rw [failed] at done
  cases done

/-- Of another file than a database no table is copied. -/
theorem foldlM_of_other {content : Member} (other : content.isDatabase = false)
    (target : DatabaseFile) (user : ∀ table ∈ tables, table ∈ userTables) :
    (∃ restored, tables.foldlM (copyTable content.file) target = .ok restored) ↔
      tables = [] := by
  cases tables with
  | nil => exact iff_of_true ⟨target, rfl⟩ rfl
  | cons table rest =>
      refine iff_of_false ?_ (List.cons_ne_nil table rest)
      have known : userTables.contains table = true := by
        simpa using user table List.mem_cons_self
      rintro ⟨restored, copied⟩
      rw [List.foldlM_cons] at copied
      rcases except_bind_eq_ok.mp copied with ⟨next, stepped, _⟩
      simp only [copyTable, known, Bool.not_true, Bool.false_eq_true, if_false] at stepped
      cases content with
      | database held => cases other
      | manifest db extraDirs => cases stepped
      | bytes text => cases stepped

/-- Which tables can be copied of what was extracted. -/
theorem Extracted.foldlM_iff {archive : Archive} {content : Member}
    (extracted : Extracted archive name backup content) (target : DatabaseFile)
    (user : ∀ table ∈ tables, table ∈ userTables) :
    (∃ restored, tables.foldlM (copyTable content.file) target = .ok restored) ↔
      (archive.shadows name = true → tables = []) ∧
        "contexts" ∉ tables ∧ "events" ∉ tables := by
  cases shadows : archive.shadows name with
  | true =>
      rw [foldlM_of_other (extracted.shadowed shadows) target user]
      constructor
      · rintro rfl
        exact ⟨fun _ => rfl, List.not_mem_nil, List.not_mem_nil⟩
      · exact fun empty => empty.1 rfl
  | false =>
      rw [extracted.whole shadows, show (Member.database backup).file = .database backup from rfl,
        foldlM_ok_iff backup target user]
      exact ⟨fun columns => ⟨fun same => absurd same Bool.false_ne_true, columns⟩, And.right⟩

/-- What the loop over the tables does with what was extracted. -/
theorem Extracted.copied {archive : Archive} {content : Member}
    (extracted : Extracted archive name backup content)
    (copied : tables.foldlM (copyTable content.file) live = .ok restored)
    (whole : archive.shadows name = true → tables = []) :
    (∀ table, table ∉ tables → restored.tables table = live.tables table) ∧
      ∀ table ∈ tables, Holds backup table restored := by
  cases shadows : archive.shadows name with
  | true =>
      cases whole shadows
      cases copied
      exact ⟨fun _ _ => rfl, fun _ member => absurd member List.not_mem_nil⟩
  | false =>
      rw [extracted.whole shadows] at copied
      exact copied_of_foldlM copied

/-- At the end the temporary file and what was extracted are deleted. -/
def sweep (livePath : FilePath) (name : FileName) (files : FileSystem) : FileSystem :=
  (files.unlink { livePath with name := restoreTemporary }).unlink { livePath with name }

/-- What is deleted of the live file's directory. -/
theorem sweep_live (files : FileSystem) (livePath : FilePath) (name : FileName) :
    sweep livePath name files livePath =
      if name = livePath.name ∨ livePath.name = restoreTemporary then none
      else files livePath := by
  have own : ∀ other : FileName, livePath = { livePath with name := other } ↔
      other = livePath.name := by
    intro other
    constructor
    · intro same
      exact (congrArg FilePath.name same).symm
    · rintro rfl
      rfl
  simp only [sweep, FileSystem.unlink, own, eq_comm (a := restoreTemporary)]
  by_cases same : name = livePath.name
  · rw [if_pos same, if_pos (Or.inl same)]
  · by_cases temporary : livePath.name = restoreTemporary
    · rw [if_neg same, if_pos temporary, if_pos (Or.inr temporary)]
    · rw [if_neg same, if_neg temporary, if_neg (not_or.mpr ⟨same, temporary⟩)]

/-- If the member can be read, the tables are copied and what is temporary is deleted. -/
theorem restoreTables_of_read {archive : Archive} {content : Member}
    (read : { livePath with name } = backupPath → reading.buffered archive = true) :
    restoreTables reading files backupPath livePath archive name content tables =
      ((copyTables (files.write { livePath with name } content.file) { livePath with name }
          livePath tables).1,
        sweep livePath name (copyTables (files.write { livePath with name } content.file)
          { livePath with name } livePath tables).2) := by
  have readable : ¬ ({ livePath with name } = backupPath ∧
      reading.buffered archive = false) := by
    rintro ⟨same, unbuffered⟩
    rw [read same] at unbuffered
    cases unbuffered
  simp only [restoreTables]
  rw [if_neg readable]
  rfl

theorem restoreTables_of_unread {archive : Archive} {content : Member}
    (same : { livePath with name } = backupPath) (unread : reading.buffered archive = false) :
    (restoreTables reading files backupPath livePath archive name content tables).1 =
      .error "EOFError" := by
  simp only [restoreTables]
  rw [if_pos ⟨same, unread⟩]

theorem restoreTables_iff {archive : Archive} {content : Member}
    (extracted : Extracted archive name backup content)
    (liveHere : files livePath = some (.database live))
    (user : ∀ table ∈ tables, table ∈ userTables) :
    SelectivelyRestores backup live livePath tables
      (restoreTables reading files backupPath livePath archive name content tables) ↔
      Restorable reading name archive backupPath livePath tables := by
  by_cases read : { livePath with name } = backupPath → reading.buffered archive = true
  case neg =>
    rcases Classical.not_imp.mp read with ⟨same, unread⟩
    refine iff_of_false (not_selectivelyRestores_of_error "EOFError" ?_) fun restorable =>
      read restorable.readable
    exact restoreTables_of_unread same (Bool.not_eq_true _ ▸ unread)
  rw [restoreTables_of_read read]
  by_cases collides : name = livePath.name ∨ livePath.name = restoreTemporary
  · refine iff_of_false (not_selectivelyRestores_of_deleted ?_) fun restorable =>
      collides.elim restorable.apart restorable.kept
    exact (sweep_live _ livePath name).trans (if_pos collides)
  have apart : ({ livePath with name } : FilePath) ≠ livePath := fun equal =>
    collides (Or.inl (congrArg FilePath.name equal))
  rcases not_or.mp collides with ⟨differs, elsewhere⟩
  have copies := extracted.foldlM_iff live user
  cases copied : tables.foldlM (copyTable content.file) live with
  | error error =>
      refine iff_of_false (not_selectivelyRestores_of_error error ?_) fun restorable => ?_
      · rw [copyTables_error liveHere apart copied]
      · rcases copies.mpr ⟨restorable.whole, restorable.columns⟩ with ⟨restored, done⟩
        cases copied.symm.trans done
  | ok restored =>
      rcases copies.mp ⟨restored, copied⟩ with ⟨whole, columns⟩
      refine iff_of_true ?_ ⟨differs, elsewhere, read, whole, columns⟩
      rw [copyTables_ok liveHere apart copied]
      refine ⟨⟨rfl, restored, ?_, extracted.copied copied whole⟩, fun _ failed => ?_⟩
      · exact (sweep_live _ livePath name).trans ((if_neg collides).trans (if_pos rfl))
      · cases failed

/-- A restore of selected tables of a backup is selective exactly if nothing collides. -/
theorem restoreUserData_selective_iff {earlier later : FileSystem} {dbPath outPath : FilePath}
    (source : earlier dbPath = some (.database backup))
    (made : backupUserData earlier dbPath outPath extraDirs = .ok later)
    (stored : files backupPath = later outPath)
    (liveHere : files livePath = some (.database live))
    (user : ∀ table ∈ tables, table ∈ userTables) :
    SelectivelyRestores backup live livePath tables
      (restoreUserData reading files backupPath livePath (some tables)) ↔
      Restorable reading dbPath.name (backupArchive dbPath.name backup extraDirs) backupPath
        livePath tables := by
  have written : later outPath =
      some (.archive (backupArchive dbPath.name backup extraDirs)) := by
    simp only [backupUserData, source] at made
    cases made
    exact if_pos rfl
  rcases restoreUserData_backup (stored.trans written) with ⟨content, extracted, same⟩
  rw [same]
  exact restoreTables_iff extracted liveHere user

end Restore

/-! ## A file of the live name -/

/-- A database with one row of tasks. -/
def oneTask (id : String) : DatabaseFile where
  tables table := if table = "tasks" then Dict.empty.set id ["queued", "2026"] else Dict.empty

def dataFile (name : FileName) : FilePath where
  directory := "data"
  name := name

def liveName : FileName where
  text := "raphael.db"

def otherName : FileName where
  text := "laptop.db"

def archiveName : FileName where
  text := "backup.zip"

/-- The live file and the backup of a database with the given name. -/
def restoreFiles (name : FileName) : FileSystem :=
  (FileSystem.write (fun _ => none) (dataFile liveName) (.database (oneTask "live"))).write
    (dataFile archiveName) (.archive (backupArchive name (oneTask "backup") []))

/-- The database that was archived, in the same directory. -/
def beforeBackup (name : FileName) : FileSystem :=
  FileSystem.write (fun _ => none) (dataFile name) (.database (oneTask "backup"))

theorem restoreUserData_other_name :
    SelectivelyRestores (oneTask "backup") (oneTask "live") (dataFile liveName) ["tasks"]
      (restoreUserData {} (restoreFiles otherName) (dataFile archiveName) (dataFile liveName)
        (some ["tasks"])) := by
  have made : backupUserData (beforeBackup otherName) (dataFile otherName)
      (dataFile archiveName) [] = .ok ((beforeBackup otherName).write (dataFile archiveName)
        (.archive (backupArchive otherName (oneTask "backup") []))) := rfl
  have stored : restoreFiles otherName (dataFile archiveName) =
      (beforeBackup otherName).write (dataFile archiveName)
        (.archive (backupArchive otherName (oneTask "backup") [])) (dataFile archiveName) := rfl
  have liveHere : restoreFiles otherName (dataFile liveName) =
      some (.database (oneTask "live")) := rfl
  have user : ∀ table ∈ ["tasks"], table ∈ userTables := by decide
  have apart : dataFile otherName ≠ dataFile archiveName := by decide
  exact (restoreUserData_selective_iff rfl made stored liveHere user).mpr
    ⟨by decide, by decide, fun same => absurd same apart, by decide, by decide⟩

/-- A live file that is restored from its own backup is deleted with the extracted one. -/
theorem restoreUserData_deletes_live :
    backupUserData (beforeBackup liveName) (dataFile liveName) (dataFile archiveName) [] =
        .ok ((beforeBackup liveName).write (dataFile archiveName)
          (.archive (backupArchive liveName (oneTask "backup") []))) ∧
      restoreFiles liveName (dataFile liveName) = some (.database (oneTask "live")) ∧
      (restoreUserData {} (restoreFiles liveName) (dataFile archiveName) (dataFile liveName)
        (some ["tasks"])).2 (dataFile liveName) = none ∧
      ¬ SelectivelyRestores (oneTask "backup") (oneTask "live") (dataFile liveName) ["tasks"]
        (restoreUserData {} (restoreFiles liveName) (dataFile archiveName) (dataFile liveName)
          (some ["tasks"])) := by
  have stored : restoreFiles liveName (dataFile archiveName) =
      some (.archive (backupArchive liveName (oneTask "backup") [])) := rfl
  have deleted : (restoreUserData {} (restoreFiles liveName) (dataFile archiveName)
      (dataFile liveName) (some ["tasks"])).2 (dataFile liveName) = none := by
    rcases restoreUserData_backup stored with ⟨content, _, same⟩
    rw [same, restoreTables_of_read]
    · dsimp only
      rw [sweep_live]
      exact if_pos (Or.inl rfl)
    · intro same
      exact absurd (congrArg (fun path => path.name.text) same) (by decide)
  exact ⟨rfl, rfl, deleted, not_selectivelyRestores_of_deleted deleted⟩

/-! ## Restores of the whole file -/

theorem dropSidecars_spec (reading : RestoreReading) (livePath : FilePath)
    (names : List FileName) (files : FileSystem) :
    let result := dropSidecars reading livePath names files
    (result.1 = .ok () ↔ ∀ name ∈ names, reading.locked { livePath with name } = false) ∧
    (result.1 = .ok () → ∀ name ∈ names, result.2 { livePath with name } = none) ∧
    ∀ other, (∀ name ∈ names, other ≠ { livePath with name }) → result.2 other = files other := by
  induction names generalizing files with
  | nil => simp [dropSidecars]
  | cons name rest induction =>
      cases held : reading.locked { livePath with name } with
      | true => simp [dropSidecars, held]
      | false =>
          rcases induction (files.unlink { livePath with name }) with ⟨ends, gone, others⟩
          simp only [dropSidecars, held, List.forall_mem_cons, true_and, Bool.false_eq_true,
            if_false]
          refine ⟨ends, fun done => ⟨?_, gone done⟩, fun other apart => ?_⟩
          · by_cases again : name ∈ rest
            · exact gone done name again
            · exact (others { livePath with name } fun later member same =>
                again ((FilePath.mk.inj same).2 ▸ member)).trans (if_pos rfl)
          · exact (others other apart.2).trans (if_neg apart.1)

/-- A restore of the whole file, whatever the files are by then: the live file is the database
that was backed up exactly if no other member has its name, even where a locked sidecar makes
the restore raise; else the sidecars are gone. All but the staging file stays. -/
theorem restoreUserData_whole {reading : RestoreReading} {files earlier later : FileSystem}
    {backupPath livePath dbPath outPath : FilePath} {backup : DatabaseFile}
    {extraDirs : List ExtraDir} (source : earlier dbPath = some (.database backup))
    (made : backupUserData earlier dbPath outPath extraDirs = .ok later)
    (stored : files backupPath = later outPath) :
    let result := restoreUserData reading files backupPath livePath none
    let sidecars := [livePath.name.suffixed "-wal", livePath.name.suffixed "-shm",
      livePath.name.suffixed "-journal"]
    (result.2 livePath = some (.database backup) ↔
      (backupArchive dbPath.name backup extraDirs).shadows dbPath.name = false) ∧
    (result.1 = .ok () ↔ ∀ name ∈ sidecars, reading.locked { livePath with name } = false) ∧
    (result.1 = .ok () → ∀ name ∈ sidecars, result.2 { livePath with name } = none) ∧
    ∀ other, (∀ name ∈ sidecars, other ≠ { livePath with name }) → other ≠ livePath →
      other ≠ { livePath with name := dbPath.name.suffixed ".incoming" } →
        result.2 other = files other := by
  have written : later outPath = some (.archive (backupArchive dbPath.name backup extraDirs)) := by
    simp only [backupUserData, source] at made
    cases made
    exact if_pos rfl
  rcases read_database dbPath.name backup extraDirs with ⟨content, found, whole, shadowed⟩
  intro result sidecars
  have same : result = restoreAll reading files livePath dbPath.name content := by
    simp only [result, restoreUserData, stored.trans written, read_manifest, found]
  rcases dropSidecars_spec reading livePath sidecars ((files.unlink
    { livePath with name := dbPath.name.suffixed ".incoming" }).write livePath content.file) with
    ⟨ends, gone, others⟩
  rw [same]
  refine ⟨?_, ends, gone, fun other unlisted notLive staged => ?_⟩
  · have live := others livePath fun name member same => by
      have length := congrArg (·.name.text.length) same
      simp only [sidecars, List.mem_cons, List.not_mem_nil, or_false] at member
      rcases member with rfl | rfl | rfl <;> simp [FileName.suffixed] at length
    rw [restoreAll, live, FileSystem.write, if_pos rfl]
    cases shadows : (backupArchive dbPath.name backup extraDirs).shadows dbPath.name with
    | false => simp [whole shadows, Member.file]
    | true => cases content <;> simp_all [Member.file, Member.isDatabase]
  · exact (others other unlisted).trans ((if_neg notLive).trans (if_neg staged))

theorem restoreUserData_whole_other_name :
    (restoreUserData {} (restoreFiles otherName) (dataFile archiveName) (dataFile liveName)
      none).2 (dataFile liveName) = some (.database (oneTask "backup")) :=
  (@restoreUserData_whole {} (restoreFiles otherName) (beforeBackup otherName) _
    (dataFile archiveName) (dataFile liveName) (dataFile otherName) (dataFile archiveName) _ []
    rfl rfl rfl).1.mpr (by decide)

end Raphael.Packaging
