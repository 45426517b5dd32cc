import Raphael.Foundation.Dict
import Raphael.Foundation.Latest
import Raphael.Personalization.MemoryStore

/-! # Preferences

What the user prefers, in a global profile and one for each project. Every save adds a
version, and the fields of a project's profile that differ from a fresh one override the
global ones. -/

namespace Raphael.Personalization

open Core Foundation Persistence

inductive OutputFormat
  | markdown
  | plain
  | json
  deriving DecidableEq, Repr

/-- A new id, and the reading of the clock at which it is made. -/
structure Stamp where
  id : String
  now : Int

structure PreferenceProfile where
  id : String
  createdAt : Int
  updatedAt : Int
  scope : MemoryScope := .global
  scopeId : String := ""
  preferredWorkflows : List String := []
  preferredTools : List String := []
  outputFormat : OutputFormat := .markdown
  defaults : Dict String String := Dict.empty
  version : Int := 1

instance : Entity PreferenceProfile where
  id := PreferenceProfile.id
  updatedAt := PreferenceProfile.updatedAt
  touch := fun now profile => { profile with updatedAt := now }
  id_touch := fun _ _ => rfl

/-- `PreferenceProfile()`. -/
def PreferenceProfile.fresh (stamp : Stamp) : PreferenceProfile where
  id := stamp.id
  createdAt := stamp.now
  updatedAt := stamp.now

abbrev PreferenceTable := SnapshotTable PreferenceProfile

namespace PreferenceStore

/-- `sorted(profiles, key=version)[-1]`, if there are any. -/
def last (profiles : List PreferenceProfile) : Option PreferenceProfile :=
  (sortBy PreferenceProfile.version profiles).getLast?

def isGlobal (profile : PreferenceProfile) : Bool := profile.scope = .global

theorem isGlobal_iff {profile : PreferenceProfile} :
    isGlobal profile = true ↔ profile.scope = .global :=
  decide_eq_true_iff

def isIn (scope : MemoryScope) (scopeId : String) (profile : PreferenceProfile) : Bool :=
  profile.scope = scope ∧ profile.scopeId = scopeId

def getGlobal (table : PreferenceTable) (stamp : Stamp) : PreferenceProfile :=
  (last (table.list.filter isGlobal)).getD (.fresh stamp)

def getProject (table : PreferenceTable) (projectId : String) : Option PreferenceProfile :=
  last (table.list.filter (isIn .project projectId))

/-- `max(versions, default=0) + 1`. -/
def nextVersion (table : PreferenceTable) (scope : MemoryScope) (scopeId : String) : Int :=
  (((table.list.filter (isIn scope scopeId)).map PreferenceProfile.version).max?).getD 0 + 1

def save (table : PreferenceTable) (now : Int) (profile : PreferenceProfile) :
    Except Error (PreferenceTable × PreferenceProfile) :=
  table.create now
    { profile with version := nextVersion table profile.scope profile.scopeId }

def getEffective (table : PreferenceTable) (stamp : Stamp) (projectId : String) :
    PreferenceProfile :=
  let base := getGlobal table stamp
  if projectId = "" then base
  else
    match getProject table projectId with
    | none => base
    | some override =>
        let fresh := PreferenceProfile.fresh stamp
        { base with
          preferredWorkflows :=
            if override.preferredWorkflows ≠ fresh.preferredWorkflows then
              override.preferredWorkflows
            else base.preferredWorkflows
          preferredTools :=
            if override.preferredTools ≠ fresh.preferredTools then override.preferredTools
            else base.preferredTools
          outputFormat :=
            if override.outputFormat ≠ fresh.outputFormat then override.outputFormat
            else base.outputFormat
          defaults := base.defaults.update override.defaults.entries
          scopeId := projectId }

end PreferenceStore

/-! ## What is preferred -/

/-- The fields of a profile that say what is preferred. -/
structure Preferences where
  workflows : List String := []
  tools : List String := []
  format : OutputFormat := .markdown
  defaults : Dict String String := Dict.empty

def PreferenceProfile.preferences (profile : PreferenceProfile) : Preferences where
  workflows := profile.preferredWorkflows
  tools := profile.preferredTools
  format := profile.outputFormat
  defaults := profile.defaults

/-- What differs from a fresh profile overrides. -/
def Preferences.overriddenBy (base : Preferences) (own : Preferences) : Preferences where
  workflows := if own.workflows ≠ [] then own.workflows else base.workflows
  tools := if own.tools ≠ [] then own.tools else base.tools
  format := if own.format ≠ .markdown then own.format else base.format
  defaults := base.defaults.update own.defaults.entries

/-- A profile with workflows alone overrides no more than these. -/
theorem Preferences.overriddenBy_workflows (base : Preferences) (workflows : List String) :
    base.overriddenBy { workflows } =
      { base with workflows := if workflows ≠ [] then workflows else base.workflows } :=
  rfl

namespace PreferenceStore

variable {table next : PreferenceTable} {stamp : Stamp} {projectId other : String}
  {profile created best : PreferenceProfile} {now : Int} {keep : PreferenceProfile → Bool}

/-- What is effective in a project, by the global profile and its own. -/
theorem preferences_getEffective (table : PreferenceTable) (stamp : Stamp)
    (projectId : String) :
    (getEffective table stamp projectId).preferences =
      match (if projectId = "" then none else getProject table projectId) with
      | none => (getGlobal table stamp).preferences
      | some own => (getGlobal table stamp).preferences.overriddenBy own.preferences := by
  unfold getEffective
  by_cases empty : projectId = ""
  · simp only [if_pos empty]
  · simp only [if_neg empty]
    cases getProject table projectId with
    | none => rfl
    | some own => rfl

/-- The order of the versions, and among equal ones that of the table. -/
def order (profile : PreferenceProfile) : Int ×ₗ Int :=
  toLex (profile.version, profile.updatedAt)

/-- The last of the selected profiles is the latest of the rows. -/
theorem last_filter (table : PreferenceTable) (keep : PreferenceProfile → Bool) :
    last (table.list.filter keep) = latest order (table.rows.filter keep) := by
  rw [last, sortBy, getLast?_insertionSort, SnapshotTable.list, sortBy, filter_insertionSort,
    latest_insertionSort]
  rfl

theorem version_lt_nextVersion {scope : MemoryScope} {scopeId : String}
    (member : profile ∈ table.rows.filter (isIn scope scopeId)) :
    profile.version < nextVersion table scope scopeId := by
  rcases List.mem_filter.mp member with ⟨stored, inside⟩
  have listed : profile.version ∈
      (table.list.filter (isIn scope scopeId)).map PreferenceProfile.version :=
    List.mem_map_of_mem (List.mem_filter.mpr ⟨SnapshotTable.mem_list.mpr stored, inside⟩)
  unfold nextVersion
  cases greatest : ((table.list.filter (isIn scope scopeId)).map
      PreferenceProfile.version).max? with
  | none =>
      rw [List.max?_eq_none_iff.mp greatest] at listed
      cases listed
  | some version =>
      have le := (List.max?_eq_some_iff.mp greatest).2 _ listed
      exact Int.lt_add_one_of_le le

/-- What a save stores. -/
theorem save_eq_ok (saved : save table now profile = .ok (next, created)) :
    created = { profile with
      version := nextVersion table profile.scope profile.scopeId, updatedAt := now } ∧
    next.rows = table.rows ++ [created] := by
  rcases SnapshotTable.create_eq_ok saved with ⟨same, rows, _⟩
  exact ⟨same, rows⟩

/-- A profile is saved under an id that is new. -/
theorem save_ok_of_unused (profile : PreferenceProfile)
    (unused : table.get profile.id = none) (now : Int) :
    ∃ next created, save table now profile = .ok (next, created) := by
  let numbered : PreferenceProfile :=
    { profile with version := nextVersion table profile.scope profile.scopeId }
  have unused : table.get (Entity.id numbered) = none := unused
  rcases SnapshotTable.create_ok_iff.mpr unused with ⟨⟨next, created⟩, saved⟩
  exact ⟨next, created, saved⟩

theorem get_save (saved : save table now profile = .ok (next, created)) (other : String) :
    next.get other = if other = profile.id then some created else table.get other :=
  SnapshotTable.get_create saved other

/-- The saved profile is behind the selected ones, if it is selected. -/
theorem filter_save (saved : save table now profile = .ok (next, created))
    (keep : PreferenceProfile → Bool) :
    next.rows.filter keep =
      table.rows.filter keep ++ if keep created then [created] else [] := by
  rw [(save_eq_ok saved).2, List.filter_append, List.filter_cons, List.filter_nil]

/-- A save leaves alone what selects other profiles. -/
theorem last_save_of_not (saved : save table now profile = .ok (next, created))
    (unselected : keep created = false) :
    last (next.list.filter keep) = last (table.list.filter keep) := by
  rw [last_filter, last_filter, filter_save saved, unselected, if_neg Bool.false_ne_true,
    List.append_nil]

/-- The saved profile is the last one unless a selected one is above it. -/
theorem last_save_of_le (saved : save table now profile = .ok (next, created))
    (selected : keep created = true)
    (least : ∀ profile ∈ table.rows.filter keep, order profile ≤ order created) :
    last (next.list.filter keep) = some created := by
  rw [last_filter, filter_save saved, if_pos selected]
  exact latest_append_of_le least

/-- If another selected profile is above the saved one, the last one stays. -/
theorem last_save_of_lt (saved : save table now profile = .ok (next, created))
    (selected : keep created = true) (above : best ∈ table.rows.filter keep)
    (less : order created < order best) :
    ∃ last' ∈ table.rows.filter keep, last (table.list.filter keep) = some last' ∧
      last (next.list.filter keep) = some last' := by
  rw [last_filter, last_filter, filter_save saved, if_pos selected, latest_append]
  cases found : latest order (table.rows.filter keep) with
  | none =>
      rw [latest_eq_none_iff.mp found] at above
      cases above
  | some greatest =>
      have greater := less.trans_le (le_latest found above)
      refine ⟨greatest, latest_mem found, rfl, ?_⟩
      exact if_neg (not_le_of_gt greater)

theorem order_lt_of_version_lt (less : profile.version < created.version) :
    order profile < order created :=
  Prod.Lex.toLex_lt_toLex.mpr (Or.inl less)

/-- A saved profile is the last one of its own scope. -/
theorem last_save_self (saved : save table now profile = .ok (next, created)) :
    last (next.list.filter (isIn profile.scope profile.scopeId)) = some created := by
  have same := (save_eq_ok saved).1
  refine last_save_of_le saved ?_ fun other member => ?_
  · rw [same]
    exact decide_eq_true ⟨rfl, rfl⟩
  · refine le_of_lt (order_lt_of_version_lt ?_)
    rw [same]
    exact version_lt_nextVersion member

/-- A profile that is saved over the last one takes its place. -/
theorem last_save_over (saved : save table now profile = .ok (next, created))
    (found : last (table.list.filter keep) = some best) (selected : keep created = true)
    (scope : profile.scope = best.scope) (scopeId : profile.scopeId = best.scopeId) :
    last (next.list.filter keep) = some created := by
  have same := (save_eq_ok saved).1
  rw [last_filter] at found
  have stored := List.mem_of_mem_filter (latest_mem found)
  have above : order best < order created := by
    refine order_lt_of_version_lt ?_
    rw [same, scope, scopeId]
    exact version_lt_nextVersion
      (List.mem_filter.mpr ⟨stored, decide_eq_true ⟨rfl, rfl⟩⟩)
  exact last_save_of_le saved selected fun other member =>
    (le_latest found member).trans (le_of_lt above)

/-- A save for a project changes the profile of the project alone. -/
theorem save_project (saved : save table now profile = .ok (next, created))
    (scope : profile.scope = .project) :
    (∀ stamp, getGlobal next stamp = getGlobal table stamp) ∧ ∀ other,
      getProject next other =
        if other = profile.scopeId then some created else getProject table other := by
  have same := (save_eq_ok saved).1
  constructor
  · intro stamp
    have elsewhere : isGlobal created = false := by
      rw [same, isGlobal, scope]
      rfl
    rw [getGlobal, getGlobal, last_save_of_not saved elsewhere]
  · intro other
    by_cases own : other = profile.scopeId
    · subst own
      rw [if_pos rfl, getProject, ← scope]
      exact last_save_self saved
    · have elsewhere : isIn .project other created = false := by
        rw [same, isIn]
        exact decide_eq_false fun inside => own inside.2.symm
      rw [if_neg own, getProject, getProject, last_save_of_not saved elsewhere]

/-- A global save leaves the projects alone. -/
theorem save_global (saved : save table now profile = .ok (next, created))
    (scope : profile.scope = .global) (other : String) :
    getProject next other = getProject table other := by
  have elsewhere : isIn .project other created = false := by
    rw [(save_eq_ok saved).1, isIn, scope]
    rfl
  rw [getProject, getProject, last_save_of_not saved elsewhere]

end PreferenceStore

end Raphael.Personalization
