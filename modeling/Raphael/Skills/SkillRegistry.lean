import Mathlib.Data.Prod.Lex
import Mathlib.Data.String.Basic
import Raphael.Core.Domain
import Raphael.Personalization.MemoryStore

/-! # The skill registry

Versioned skills over their repository. A skill is a workflow template: its steps are JSON
objects. -/

namespace Raphael.Skills

open Core Foundation Persistence
open Personalization (MemoryScope)

inductive SkillType
  | builtin
  | userDefined
  | learnedProposal
  | imported
  deriving DecidableEq, Repr

inductive SkillStatus
  | active
  | disabled
  | archived
  deriving DecidableEq, Repr

def SkillStatus.value : SkillStatus → String
  | .active => "ACTIVE"
  | .disabled => "DISABLED"
  | .archived => "ARCHIVED"

/-- A JSON object. -/
abbrev Fields := List (String × Json)

structure Skill where
  id : String
  updatedAt : Int := 0
  name : String := ""
  version : String := "1.0.0"
  description : String := ""
  inputSchema : Fields := []
  outputSchema : Fields := []
  codeRef : String := ""
  skillType : SkillType := .userDefined
  status : SkillStatus := .active
  allowedTools : List String := []
  requiredCapabilities : List String := []
  riskClass : RiskLevel := .low
  workflow : List Fields := []
  verification : List Fields := []
  author : String := ""
  scope : MemoryScope := .global
  scopeId : String := ""

instance : Entity Skill where
  id := Skill.id
  updatedAt := Skill.updatedAt
  touch := fun now skill => { skill with updatedAt := now }
  id_touch := fun _ _ => rfl

/-! ## Versions -/

/-- What texts and numbers answer. -/
structure VersionText where
  /-- `text.isdigit()`. -/
  isDigit : String → Bool
  /-- `text.isalnum()`. -/
  isAlnum : String → Bool
  /-- `int(text)`; none where it raises. -/
  readInt : String → Option Int
  /-- `str(value)` of an integer; none where it has too many digits. -/
  showInt : Int → Option String

/-- Versions of ASCII digits and letters. -/
def asciiText : VersionText where
  isDigit := fun text => text != "" && text.toList.all Char.isDigit
  isAlnum := fun text => text != "" && text.toList.all Char.isAlphanum
  readInt := fun text =>
    if text != "" && text.toList.all Char.isDigit then
      some (Nat.ofDigitChars 10 text.toList 0)
    else none
  showInt := fun value => some value.repr

/-- `version.split(".")`. -/
def chunks (version : String) : List String :=
  (version.toList.splitOn '.').map String.ofList

/-- Numbers before text. -/
abbrev VersionKey := List (Nat ×ₗ Int ×ₗ String)

section Versions

variable (text : VersionText)

/-- The part of the key that is made of one chunk; none where `int` raises. -/
def chunkKey (chunk : String) : Option (Nat ×ₗ Int ×ₗ String) :=
  if text.isDigit chunk then (text.readInt chunk).map fun value => toLex (0, toLex (value, ""))
  else some (toLex (1, toLex (0, chunk)))

/-- `_version_key`; none where it raises. -/
def versionKey (version : String) : Option VersionKey := (chunks version).mapM (chunkKey text)

/-- Every chunk of digits can be read. -/
def Readable (version : String) : Prop :=
  ∀ chunk ∈ chunks version, text.isDigit chunk = true → (text.readInt chunk).isSome

theorem versionKey_isSome_iff (version : String) :
    (∃ key, versionKey text version = some key) ↔ Readable text version := by
  unfold versionKey Readable
  generalize chunks version = all
  induction all with
  | nil => exact iff_of_true ⟨[], rfl⟩ fun _ member => absurd member List.not_mem_nil
  | cons chunk rest induction =>
      have first : (∃ part, chunkKey text chunk = some part) ↔
          (text.isDigit chunk = true → (text.readInt chunk).isSome) := by
        unfold chunkKey
        split
        · next digit => simp [digit, Option.isSome_iff_exists]
        · next letters => simp [letters]
      rw [List.forall_mem_cons, ← induction, ← first]
      constructor
      · rintro ⟨key, made⟩
        simp only [List.mapM_cons, Option.bind_eq_bind, Option.bind_eq_some_iff] at made
        rcases made with ⟨part, isPart, others, areOthers, _⟩
        exact ⟨⟨part, isPart⟩, others, areOthers⟩
      · rintro ⟨⟨part, isPart⟩, others, areOthers⟩
        exact ⟨part :: others, by simp [isPart, areOthers]⟩

/-- `_valid_version`. -/
def validVersion (version : String) : Bool :=
  version != "" && (chunks version).all fun chunk =>
    text.isDigit chunk ||
      text.isAlnum (String.ofList (chunk.toList.filter fun character =>
        character != '-' && character != '_'))

/-- `_bump`. -/
def bump (version : String) : String :=
  let parts := chunks version
  let parts := parts ++ List.replicate (3 - parts.length) "0"
  let last := (text.readInt (parts.getLastD "")).bind fun value => text.showInt (value + 1)
  match last with
  | some next => Text.join "." (parts.dropLast ++ [next])
  | none => Text.join "." (parts ++ ["1"])

/-- The key of a skill whose version has one. -/
def keyOf (skill : Skill) : VersionKey := (versionKey text skill.version).getD []

/-- `sorted(skills, key=lambda s: _version_key(s.version))`: every key is made first. -/
def sortByVersion (skills : List Skill) : Except Error (List Skill) :=
  if skills.all fun skill => (versionKey text skill.version).isSome then
    .ok (skills.insertionSort fun left right => keyOf text left ≤ keyOf text right)
  else .error (.other "invalid literal for int()")

end Versions

/-! ## The registry -/

/-- Work on the table of skills. -/
abbrev SkillM := EStateM Error (SnapshotTable Skill)

namespace SkillRepository

def create (now : Int) (skill : Skill) : SkillM Skill :=
  fun table =>
    match table.create now skill with
    | .ok (next, created) => .ok created next
    | .error error => .error error table

def get (skillId : String) : SkillM (Option Skill) :=
  fun table => .ok (table.get skillId) table

def list : SkillM (List Skill) :=
  fun table => .ok table.list table

def update (now : Int) (skill : Skill) : SkillM Skill :=
  fun table => .ok (table.update now skill).2 (table.update now skill).1

def delete (skillId : String) : SkillM Bool :=
  fun table => .ok (table.get skillId).isSome (table.delete skillId)

/-- A successful `create` leaves one more row. -/
theorem create_of_unused {now : Int} {skill : Skill} {table : SnapshotTable Skill}
    (unused : table.get skill.id = none) :
    ∃ next, create now skill table = .ok (Entity.touch now skill) next ∧
      next.rows = table.rows ++ [Entity.touch now skill] := by
  have possible : ∃ created, table.create now skill = .ok created :=
    SnapshotTable.create_ok_iff.mpr unused
  rcases possible with ⟨⟨next, created⟩, written⟩
  have ⟨touched, rows, _⟩ := SnapshotTable.create_eq_ok written
  subst touched
  refine ⟨next, ?_, rows⟩
  unfold create
  rw [written]

end SkillRepository

/-- The fields that a call of `new_version` gives, but for the version. -/
structure SkillChanges where
  id : Option String := none
  name : Option String := none
  description : Option String := none
  inputSchema : Option Fields := none
  outputSchema : Option Fields := none
  codeRef : Option String := none
  skillType : Option SkillType := none
  status : Option SkillStatus := none
  allowedTools : Option (List String) := none
  requiredCapabilities : Option (List String) := none
  riskClass : Option RiskLevel := none
  workflow : Option (List Fields) := none
  verification : Option (List Fields) := none
  author : Option String := none
  scope : Option MemoryScope := none
  scopeId : Option String := none

namespace SkillRegistry

variable (text : VersionText)

def register (now : Int) (skill : Skill) : SkillM Skill := do
  if skill.name = "" then
    throw (.domainValidation "skill name must not be empty")
  if !validVersion text skill.version then
    throw (.domainValidation ("invalid skill version " ++ Text.repr skill.version))
  if (← SkillRepository.get skill.id).isSome then
    throw (.domainValidation ("duplicate skill id " ++ Text.repr skill.id))
  SkillRepository.create now skill

/-- The highest active version, or one exact version. -/
def lookup (name : String) (version : Option String) : SkillM (Option Skill) := do
  let named := (← SkillRepository.list).filter fun skill => skill.name == name
  if named = [] then
    return none
  match version with
  | some version => return named.find? fun skill => skill.version == version
  | none =>
      let active := named.filter fun skill => skill.status == .active
      if active = [] then
        return none
      return (← MonadExcept.ofExcept (sortByVersion text active)).getLast?

/-- All stored versions, oldest first. -/
def versions (name : String) : SkillM (List Skill) := do
  let skills ← SkillRepository.list
  MonadExcept.ofExcept (sortByVersion text (skills.filter fun skill => skill.name == name))

/-- The record that a new version is: a given field, or that of the current version. -/
def successor (id : String) (changes : SkillChanges) (current : Skill) : Skill where
  id := changes.id.getD id
  updatedAt := current.updatedAt
  name := changes.name.getD current.name
  version := bump text current.version
  description := changes.description.getD current.description
  inputSchema := changes.inputSchema.getD current.inputSchema
  outputSchema := changes.outputSchema.getD current.outputSchema
  codeRef := changes.codeRef.getD current.codeRef
  skillType := changes.skillType.getD current.skillType
  status := changes.status.getD current.status
  allowedTools := changes.allowedTools.getD current.allowedTools
  requiredCapabilities := changes.requiredCapabilities.getD current.requiredCapabilities
  riskClass := changes.riskClass.getD current.riskClass
  workflow := changes.workflow.getD current.workflow
  verification := changes.verification.getD current.verification
  author := changes.author.getD current.author
  scope := changes.scope.getD current.scope
  scopeId := changes.scopeId.getD current.scopeId

/-- `Skill.model_validate` may refuse what the changes give. -/
def newVersion (now : Int) (id name : String) (changes : Except Error SkillChanges) :
    SkillM Skill := do
  match ← lookup text name none with
  | none => throw (.domainValidation ("unknown skill " ++ Text.repr name))
  | some current =>
      let changes ← MonadExcept.ofExcept changes
      SkillRepository.create now (successor text id changes current)

def setStatus (now : Int) (skillId : String) (status : SkillStatus) : SkillM Skill := do
  match ← SkillRepository.get skillId with
  | none => throw (.other ("Skill " ++ Text.repr skillId ++ " not found"))
  | some skill => SkillRepository.update now { skill with status := status }

def delete (skillId : String) : SkillM Bool := SkillRepository.delete skillId

/-- What `register` asks of a skill. -/
def Accepts (table : SnapshotTable Skill) (skill : Skill) : Prop :=
  skill.name ≠ "" ∧ validVersion text skill.version = true ∧ table.get skill.id = none

variable {text : VersionText}

theorem register_of_accepts {now : Int} {skill : Skill} {table : SnapshotTable Skill}
    (accepted : Accepts text table skill) :
    register text now skill table = SkillRepository.create now skill table := by
  have ⟨named, valid, unused⟩ := accepted
  have invalid : ¬ (!validVersion text skill.version) = true := by
    rw [valid]
    exact Bool.false_ne_true
  unfold register
  rw [if_neg named]
  dsimp only
  rw [if_neg invalid, bind_apply]
  change (if (table.get skill.id).isSome = true then _ else _ : SkillM Skill) table = _
  rw [unused]
  rfl

theorem register_of_not_accepts {now : Int} {skill : Skill} {table : SnapshotTable Skill}
    (refused : ¬ Accepts text table skill) :
    ∃ error, register text now skill table = .error error table := by
  unfold register
  by_cases unnamed : skill.name = ""
  · rw [if_pos unnamed]
    exact ⟨_, rfl⟩
  · rw [if_neg unnamed]
    dsimp only
    by_cases invalid : (!validVersion text skill.version) = true
    · rw [if_pos invalid]
      exact ⟨_, rfl⟩
    · rw [if_neg invalid]
      rw [Bool.not_eq_true', Bool.not_eq_false] at invalid
      have read : SkillRepository.get skill.id table = .ok (table.get skill.id) table := rfl
      rw [bind_apply, read]
      cases stored : table.get skill.id with
      | none => exact absurd ⟨unnamed, invalid, stored⟩ refused
      | some held => exact ⟨_, rfl⟩

end SkillRegistry

end Raphael.Skills
