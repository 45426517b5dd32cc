import Mathlib.Data.List.Sort
import Mathlib.Data.String.Basic
import Raphael.Core.Text

/-! # Directories and the names of files

What lies below a directory, the walk through it, and the names that an archive gives to the
files that are found. Paths are those with the slash as separator. -/

namespace Raphael.Packaging

open Core

/-- The last component of a path. -/
structure FileName where
  text : String
  plain : '/' ∉ text.toList := by decide
  deriving DecidableEq

/-- The name of an entry of a directory. -/
structure EntryName extends FileName where
  named : text ∉ ["", ".", ".."] := by decide
  deriving DecidableEq

/-- The path of an entry, relative to the directory that the walk starts in. -/
structure RelativePath where
  parents : List EntryName := []
  name : EntryName
  deriving DecidableEq

namespace RelativePath

def under (directory : EntryName) (path : RelativePath) : RelativePath :=
  { path with parents := directory :: path.parents }

def parts (path : RelativePath) : List String :=
  (path.parents ++ [path.name]).map fun part => part.text

/-- The first component of a path. -/
def head (path : RelativePath) : EntryName := path.parents.headD path.name

end RelativePath

/-! ## The entries of a directory -/

/-- The entries in the order in which they are listed. What is `other` is neither a file nor
gone through. -/
inductive Entries
  | nil
  | file (name : EntryName) (content : String) (rest : Entries)
  | directory (name : EntryName) (entries rest : Entries)
  | other (name : EntryName) (rest : Entries)

namespace Entries

def names : Entries → List EntryName
  | nil => []
  | file name _ rest => name :: rest.names
  | directory name _ rest => name :: rest.names
  | other name rest => name :: rest.names

/-- No directory has two entries of one name. -/
def Distinct : Entries → Prop
  | nil => True
  | file name _ rest => name ∉ rest.names ∧ rest.Distinct
  | directory name entries rest => name ∉ rest.names ∧ entries.Distinct ∧ rest.Distinct
  | other name rest => name ∉ rest.names ∧ rest.Distinct

/-- There is a regular file with the content at the path. -/
inductive Holds : Entries → RelativePath → String → Prop
  | file : Holds (.file name content rest) { name } content
  | inside : Holds entries path content →
      Holds (.directory name entries rest) (path.under name) content
  | afterFile : Holds rest path content → Holds (.file name held rest) path content
  | afterDirectory : Holds rest path content → Holds (.directory name entries rest) path content
  | afterOther : Holds rest path content → Holds (.other name rest) path content

/-- `root.rglob("*")`: all that is below the directory, with the contents of the files. -/
def descendants : Entries → List (RelativePath × Option String)
  | nil => []
  | file name content rest => ({ name }, some content) :: rest.descendants
  | directory name entries rest =>
      ({ name }, none) ::
        (entries.descendants.map fun found => (found.1.under name, found.2)) ++ rest.descendants
  | other name rest => ({ name }, none) :: rest.descendants

/-- The files in the order of their sorted paths. -/
def files (entries : Entries) : List (RelativePath × String) :=
  (entries.descendants.insertionSort fun left right => left.1.parts ≤ right.1.parts).filterMap
    fun found => found.2.map fun content => (found.1, content)

theorem mem_files {entries : Entries} {path : RelativePath} {content : String} :
    (path, content) ∈ entries.files ↔ (path, some content) ∈ entries.descendants := by
  simp only [files, List.mem_filterMap, List.mem_insertionSort, Option.map_eq_some_iff]
  constructor
  · rintro ⟨⟨_, _⟩, found, _, rfl, ⟨⟩⟩
    exact found
  · exact fun found => ⟨_, found, content, rfl, rfl⟩

theorem mem_descendants_iff {entries : Entries} {path : RelativePath} {content : String} :
    (path, some content) ∈ entries.descendants ↔ entries.Holds path content := by
  constructor
  · intro found
    induction entries generalizing path with
    | nil => cases found
    | file name held rest later =>
        rcases List.mem_cons.mp found with here | found
        · cases here
          exact .file
        · exact .afterFile (later found)
    | directory name entries rest inner later =>
        rcases List.mem_append.mp found with found | found
        · rcases List.mem_cons.mp found with here | found
          · cases here
          · rcases List.mem_map.mp found with ⟨⟨below, _⟩, deeper, same⟩
            cases same
            exact .inside (inner deeper)
        · exact .afterDirectory (later found)
    | other name rest later =>
        rcases List.mem_cons.mp found with here | found
        · cases here
        · exact .afterOther (later found)
  · intro held
    induction held with
    | file => exact List.mem_cons_self
    | inside _ found =>
        exact List.mem_append_left _ (List.mem_cons_of_mem _
          (List.mem_map_of_mem (f := fun found => (RelativePath.under _ found.1, found.2)) found))
    | afterFile _ found => exact List.mem_cons_of_mem _ found
    | afterDirectory _ found => exact List.mem_append_right _ found
    | afterOther _ found => exact List.mem_cons_of_mem _ found

/-- Every regular file is found by the walk, and nothing else. -/
theorem mem_files_iff {entries : Entries} {path : RelativePath} {content : String} :
    (path, content) ∈ entries.files ↔ entries.Holds path content :=
  mem_files.trans mem_descendants_iff

end Entries

/-- A directory as the walk finds it. -/
structure Directory where
  entries : Entries
  distinct : entries.Distinct

/-! ## The names in an archive -/

/-- `Path(path).name`. -/
def pathName (path : String) : String :=
  ((Text.split '/' path).filter fun part => part != "" && part != ".").getLastD ""

/-- One turn of the loop of `os.path.normpath` over the components. -/
def normStep (kept : List String) (part : String) : List String :=
  if part = "" ∨ part = "." then kept
  else if part = ".." ∧ kept ≠ [] ∧ kept.getLast? ≠ some ".." then kept.dropLast
  else kept ++ [part]

/-- `os.path.normpath` of a path that does not start with a slash. -/
def normpath (path : String) : String :=
  match (Text.split '/' path).foldl normStep [] with
  | [] => "."
  | kept => Text.join "/" kept

/-- The name under which `archive.write` stores a file that has the name `file` and was found
below a directory that has the name `directory`. -/
def arcname (directory file : String) : String := normpath ("extra/" ++ directory ++ "/" ++ file)

example : arcname "logs" "a.txt" = "extra/logs/a.txt" := by decide +kernel
example : arcname ".." "a.txt" = "a.txt" := by decide +kernel
example : pathName "data/logs/" = "logs" := by decide +kernel

end Raphael.Packaging
