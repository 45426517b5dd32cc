import Raphael.Packaging.Backup

/-! # The names of archived files

A backup stores a file of an extra directory under the name of that directory and its own
name, whatever lies between the two. When that loses no file. -/

namespace Raphael.Packaging

open Core Foundation

/-- A regular file below one of the extra directories, which is told by its place in the list. -/
structure ExtraFile where
  root : Nat
  directory : String
  path : RelativePath
  content : String
  deriving DecidableEq

namespace ExtraFile

def Below (file : ExtraFile) (extraDirs : List ExtraDir) : Prop :=
  ∃ directory,
    extraDirs[file.root]? = some { path := file.directory, directory := some directory } ∧
      directory.entries.Holds file.path file.content

/-- The name under which the file is stored. -/
def archived (file : ExtraFile) : String :=
  arcname (pathName file.directory) file.path.name.text

end ExtraFile

/-- Files of one name are not below directories of one name, and where the directory goes up,
no file has the name of the database or of the manifest. -/
structure NamesApart (name : FileName) (extraDirs : List ExtraDir) : Prop where
  files : ∀ first second : ExtraFile, first.Below extraDirs → second.Below extraDirs →
    first.path.name = second.path.name → pathName first.directory = pathName second.directory →
      first.root = second.root ∧ first.path = second.path
  members : ∀ file : ExtraFile, file.Below extraDirs → pathName file.directory = ".." →
    file.path.name.text ≠ name.text ∧ file.path.name.text ≠ "manifest.json"

/-! ## Names -/

variable {directory : String} {file : EntryName}

def ExtraDir.filesAt (extra : ExtraDir) (root : Nat) : List ExtraFile :=
  match extra.directory with
  | none => []
  | some directory => directory.entries.files.map fun file =>
      { root, directory := extra.path, path := file.1, content := file.2 }

def extraFiles (extraDirs : List ExtraDir) : List ExtraFile :=
  extraDirs.zipIdx.flatMap fun extra => extra.1.filesAt extra.2

theorem mem_filesAt {extra : ExtraDir} {root : Nat} {file : ExtraFile} :
    file ∈ extra.filesAt root ↔ file.root = root ∧ ∃ directory,
      extra = { path := file.directory, directory := some directory } ∧
        directory.entries.Holds file.path file.content := by
  rcases extra with ⟨path, _ | directory⟩
  · simp [ExtraDir.filesAt]
  · simp only [ExtraDir.filesAt, List.mem_map, Prod.exists, Entries.mem_files_iff]
    constructor
    · rintro ⟨path, content, held, rfl⟩
      exact ⟨rfl, directory, rfl, held⟩
    · rintro ⟨rfl, _, ⟨⟩, held⟩
      exact ⟨file.path, file.content, held, rfl⟩

theorem mem_extraFiles {extraDirs : List ExtraDir} {file : ExtraFile} :
    file ∈ extraFiles extraDirs ↔ file.Below extraDirs := by
  simp only [extraFiles, List.mem_flatMap, Prod.exists, List.mem_zipIdx_iff_getElem?, mem_filesAt]
  constructor
  · rintro ⟨_, _, listed, rfl, directory, rfl, held⟩
    exact ⟨directory, listed, held⟩
  · rintro ⟨directory, listed, held⟩
    exact ⟨_, _, listed, rfl, directory, rfl, held⟩

section Names

variable {name : FileName} {content : DatabaseFile} {extraDirs : List ExtraDir}

end Names

instance NamesApart.decidable (name : FileName) (extraDirs : List ExtraDir) :
    Decidable (NamesApart name extraDirs) :=
  decidable_of_iff
    ((∀ first ∈ extraFiles extraDirs, ∀ second ∈ extraFiles extraDirs,
      first.path.name = second.path.name →
        pathName first.directory = pathName second.directory →
          first.root = second.root ∧ first.path = second.path) ∧
      ∀ file ∈ extraFiles extraDirs, pathName file.directory = ".." →
        file.path.name.text ≠ name.text ∧ file.path.name.text ≠ "manifest.json")
    ⟨fun apart => ⟨fun first second below below' =>
        apart.1 first (mem_extraFiles.mpr below) second (mem_extraFiles.mpr below'),
      fun file below => apart.2 file (mem_extraFiles.mpr below)⟩,
    fun apart => ⟨fun first inside second inside' =>
        apart.files first second (mem_extraFiles.mp inside) (mem_extraFiles.mp inside'),
      fun file inside => apart.members file (mem_extraFiles.mp inside)⟩⟩

/-! ## Two files of one name -/

end Raphael.Packaging
