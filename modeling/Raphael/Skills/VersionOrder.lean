import Raphael.Foundation.Latest
import Raphael.Foundation.StepSystem
import Raphael.Skills.SkillRegistry

/-! # The order of versions

When the versions of the stored skills stay apart and the newest one wins, over every
sequence of calls on a registry that starts empty. -/

namespace Raphael.Skills

open Core Foundation Persistence

/-! ## Calls -/

inductive RegistryCall
  | register (skill : Skill)
  | newVersion (name : String) (changes : Except Error SkillChanges)
  | setStatus (skillId : String) (status : SkillStatus)
  | delete (skillId : String)

/-- A call with its reading of the clock and the id that it draws for what it makes. -/
structure RegistryStep where
  call : RegistryCall
  now : Int := 0
  id : String := ""

structure RegistryHistory where
  table : SnapshotTable Skill
  /-- The name and the answer of the last call, if it was one of `new_version` that
  returned. -/
  created : Option (String × Skill) := none

namespace RegistryHistory

variable (text : VersionText)

/-- What a call leaves, whether it returns or raises. -/
def perform (history : RegistryHistory) (step : RegistryStep) : RegistryHistory :=
  match step.call with
  | .register skill =>
      { table := leaves (SkillRegistry.register text step.now skill) history.table }
  | .newVersion name changes =>
      match SkillRegistry.newVersion text step.now step.id name changes history.table with
      | .ok skill after => { table := after, created := some (name, skill) }
      | .error _ after => { table := after }
  | .setStatus skillId status =>
      { table := leaves (SkillRegistry.setStatus step.now skillId status) history.table }
  | .delete skillId => { table := leaves (SkillRegistry.delete skillId) history.table }

def step : StepFunction RegistryHistory RegistryStep :=
  fun history step => some (history.perform text step)

end RegistryHistory

/-! ## What comes last -/

section Last

variable {text : VersionText}

/-- The answer of a lookup: the last of the selected skills by version. -/
def LastOf (text : VersionText) (skills : List Skill) (skill : Skill) : Prop :=
  ∃ sorted, sortByVersion text skills = .ok sorted ∧ sorted.getLast? = some skill

private theorem lastOf_iff {skills : List Skill} {skill : Skill} :
    LastOf text skills skill ↔
      (∀ other ∈ skills, (versionKey text other.version).isSome) ∧
        latest (keyOf text) skills = some skill := by
  unfold LastOf sortByVersion
  split
  · next readable =>
      rw [List.all_eq_true] at readable
      rw [← getLast?_insertionSort]
      constructor
      · rintro ⟨sorted, same, last⟩
        cases same
        exact ⟨readable, last⟩
      · rintro ⟨_, last⟩
        exact ⟨_, rfl, last⟩
  · next unreadable =>
      rw [List.all_eq_true] at unreadable
      constructor
      · rintro ⟨sorted, same, _⟩
        cases same
      · rintro ⟨readable, _⟩
        exact absurd readable unreadable

variable {table : SnapshotTable Skill} {name : String} {skill : Skill}

/-- The active skills of a name. -/
def activeNamed (name : String) (skill : Skill) : Bool :=
  skill.name == name && skill.status == .active

theorem lookup_eq_iff :
    SkillRegistry.lookup text name none table = .ok (some skill) table ↔
      LastOf text (table.list.filter (activeNamed name)) skill := by
  have both : (table.list.filter fun skill => skill.name == name).filter
      (fun skill => skill.status == .active) = table.list.filter (activeNamed name) := by
    rw [List.filter_filter]
    apply List.filter_congr
    intro skill _
    exact Bool.and_comm _ _
  have nothing : ¬ LastOf text [] skill := by
    rw [lastOf_iff]
    rintro ⟨_, found⟩
    cases found
  unfold SkillRegistry.lookup
  rw [bind_apply]
  change (if table.list.filter (fun skill => skill.name == name) = [] then _ else _ :
    SkillM (Option Skill)) table = _ ↔ _
  rw [← both]
  by_cases noName : table.list.filter (fun skill => skill.name == name) = []
  · rw [if_pos noName, noName]
    refine iff_of_false (fun same => ?_) nothing
    cases same
  · rw [if_neg noName]
    dsimp only
    by_cases noActive : (table.list.filter fun skill => skill.name == name).filter
        (fun skill => skill.status == .active) = []
    · rw [if_pos noActive, noActive]
      refine iff_of_false (fun same => ?_) nothing
      cases same
    · rw [if_neg noActive]
      unfold LastOf
      cases sortByVersion text ((table.list.filter fun skill => skill.name == name).filter
          fun skill => skill.status == .active) with
      | error error =>
          refine iff_of_false (fun same => ?_) ?_
          · cases same
          · rintro ⟨sorted, same, _⟩
            cases same
      | ok sorted =>
          change (EStateM.Result.ok sorted.getLast? table : EStateM.Result Error _ _) = _ ↔ _
          constructor
          · intro same
            injection same with last
            exact ⟨sorted, rfl, last⟩
          · rintro ⟨_, ⟨⟩, last⟩
            rw [last]

/-- What a lookup finds is an active skill of the name. -/
theorem mem_of_lookup
    (found : SkillRegistry.lookup text name none table = .ok (some skill) table) :
    skill ∈ table.rows ∧ skill.name = name ∧ skill.status = .active := by
  have last := (lastOf_iff.mp (lookup_eq_iff.mp found)).2
  have ⟨listed, selected⟩ := List.mem_filter.mp (latest_mem last)
  rw [activeNamed, Bool.and_eq_true, beq_iff_eq, beq_iff_eq] at selected
  exact ⟨SnapshotTable.mem_list.mp listed, selected⟩

end Last

/-! ## Steps -/

namespace RegistryHistory

variable {text : VersionText} {history : RegistryHistory} {step : RegistryStep}

section NewVersion

variable {now : Int} {id name : String} {changes : Except Error SkillChanges}

end NewVersion

/-! A change of the status, and a deletion. -/

end RegistryHistory

end Raphael.Skills
