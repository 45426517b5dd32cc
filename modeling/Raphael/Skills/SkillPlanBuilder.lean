import Raphael.Agent.Planner.PlanValidator
import Raphael.Foundation.Dict
import Raphael.Foundation.Replacing
import Raphael.Skills.SkillRegistry
import Raphael.Tools.ToolRegistry

/-! # Skill plans

A skill candidate is drafted from a plan, waits for its approval, becomes an active skill,
and is built into a plan again. -/

namespace Raphael.Skills

open Core Foundation Persistence
open Agent.Planner Tools
open Personalization (MemoryScope)

/-! ## Candidates -/

/-- A proposed skill awaiting explicit approval. -/
structure SkillProposal where
  id : String
  name : String := ""
  description : String := ""
  skillType : SkillType := .learnedProposal
  allowedTools : List String := []
  requiredCapabilities : List String := []
  riskClass : RiskLevel := .medium
  inputSchema : Fields := []
  outputSchema : Fields := []
  workflow : List Fields := []
  verification : List Fields := []
  author : String := ""
  scope : MemoryScope := .global
  scopeId : String := ""
  reason : String := ""

/-- The template of one step. -/
def stepTemplate (step : PlanStep) : Fields :=
  [("id", .str step.id),
    ("description", .str step.description),
    ("tool", .str (step.tools.headD "")),
    ("dependencies", .arr (step.dependencies.map .str)),
    ("verification", .str step.verification),
    ("completion_criteria", .str step.completionCriteria)]

/-- A candidate from a successful plan; the first argument is the id that it draws. -/
def proposeFromWorkflow (id : String) (plan : Plan) (name author scopeId : String) :
    SkillProposal where
  id := id
  name := name
  description := "Learned from plan: " ++ plan.goal
  allowedTools := (plan.steps.flatMap (·.tools)).dedup.insertionSort (· ≤ ·)
  workflow := plan.steps.map stepTemplate
  verification := [[("check", .str plan.finalVerification)]]
  author := author
  scope := if scopeId = "" then .global else .project
  scopeId := scopeId
  reason := "successful workflow observed"

/-- The skill that a candidate is adopted as. -/
def SkillProposal.adopted (proposal : SkillProposal) (id version : String) (now : Int) :
    Skill where
  id := id
  updatedAt := now
  name := proposal.name
  version := version
  description := proposal.description
  inputSchema := proposal.inputSchema
  outputSchema := proposal.outputSchema
  skillType := proposal.skillType
  status := .active
  allowedTools := proposal.allowedTools
  requiredCapabilities := proposal.requiredCapabilities
  riskClass := proposal.riskClass
  workflow := proposal.workflow
  verification := proposal.verification
  author := if proposal.author = "" then "candidate-approval" else proposal.author
  scope := proposal.scope
  scopeId := proposal.scopeId

/-- The proposal inbox: each candidate is under its id, named, and of the type that is never
active. -/
structure SkillCandidateStore where
  candidates : Dict String SkillProposal := .empty
  filed : ∀ id proposal, candidates.get id = some proposal →
    proposal.id = id ∧ proposal.name ≠ "" ∧ proposal.skillType = .learnedProposal := by
    intro _ _ found; cases found

namespace SkillCandidateStore

/-- File a candidate. -/
def propose (store : SkillCandidateStore) (proposal : SkillProposal) :
    Except Error SkillCandidateStore :=
  if unnamed : proposal.name = "" then
    .error (.domainValidation "skill proposal needs a name")
  else if foreign : proposal.skillType ≠ .learnedProposal then
    .error (.domainValidation "candidates must be LEARNED_PROPOSAL")
  else .ok
    { candidates := store.candidates.set proposal.id proposal
      filed := by
        intro id held found
        rw [Dict.get_set] at found
        split at found
        · next same =>
            cases found
            exact ⟨same.symm, unnamed, not_not.mp foreign⟩
        · exact store.filed id held found }

/-- A pending candidate; none when it is unknown or decided. -/
def get (store : SkillCandidateStore) (proposalId : String) : Option SkillProposal :=
  store.candidates.get proposalId

/-- `self._candidates.pop(proposal_id, None)`. -/
def pop (store : SkillCandidateStore) (proposalId : String) : SkillCandidateStore where
  candidates := store.candidates.erase proposalId
  filed := fun id held found => store.filed id held (Dict.get_erase_eq_some.mp found).1

/-- Discard a candidate. -/
def reject (store : SkillCandidateStore) (proposalId : String) :
    Bool × SkillCandidateStore :=
  ((store.get proposalId).isSome, store.pop proposalId)

/-- A named candidate of the type is filed and pending. -/
theorem propose_pending (store : SkillCandidateStore) {proposal : SkillProposal}
    (named : proposal.name ≠ "") (learned : proposal.skillType = .learnedProposal) :
    ∃ next, store.propose proposal = .ok next ∧ next.get proposal.id = some proposal := by
  unfold propose
  rw [dif_neg named, dif_neg (not_not.mpr learned)]
  refine ⟨_, rfl, ?_⟩
  unfold get
  dsimp only
  rw [Dict.get_set, if_pos rfl]

theorem get_pop (store : SkillCandidateStore) (proposalId : String) :
    (store.pop proposalId).get proposalId = none := by
  apply Option.eq_none_iff_forall_ne_some.mpr
  intro held found
  exact (Dict.get_erase_eq_some.mp found).2 rfl

end SkillCandidateStore

/-- The inbox and the table of skills. -/
structure SkillInbox where
  candidates : SkillCandidateStore := {}
  skills : SnapshotTable Skill

namespace SkillInbox

/-- Work on the skills alone. -/
def onSkills (work : SkillM Value) : EStateM Error SkillInbox Value := fun inbox =>
  match work inbox.skills with
  | .ok answer skills => .ok answer { inbox with skills := skills }
  | .error error skills => .error error { inbox with skills := skills }

/-- Adopt a candidate as an active skill version, which draws an id. -/
def approve (text : VersionText) (now : Int) (id proposalId version : String) :
    EStateM Error SkillInbox Skill := do
  let inbox ← get
  set { inbox with candidates := inbox.candidates.pop proposalId }
  match inbox.candidates.get proposalId with
  | none => throw (.domainValidation ("unknown proposal " ++ Text.repr proposalId))
  | some proposal =>
      onSkills (SkillRegistry.register text now (proposal.adopted id version now))

end SkillInbox

/-! ## Building a plan -/

namespace SkillPlanBuilder

/-! `\$inputs\.([A-Za-z_][A-Za-z0-9_]*)`. -/

def startsName (character : Char) : Bool := character.isAlpha || character == '_'

def continuesName (character : Char) : Bool := character.isAlphanum || character == '_'

/-- The name in a placeholder that a text starts with. -/
def placeholder (text : List Char) : Option (List Char) :=
  if "$inputs.".toList.isPrefixOf text then
    match text.drop "$inputs.".length with
    | [] => none
    | head :: rest =>
        if startsName head then some (head :: rest.takeWhile continuesName) else none
  else none

/-- What stands for the placeholder with a name: the text of the input, or itself. -/
def replacement (inputs : Arguments) (name : List Char) : List Char :=
  match Json.lookup (String.ofList name) inputs with
  | some value => value.text.toList
  | none => "$inputs.".toList ++ name

def matchAt (inputs : Arguments) (text : List Char) : Option (Replaced Char) :=
  (placeholder text).map fun name =>
    { more := "$inputs.".length - 1 + name.length, replacement := replacement inputs name }

/-- `_fill`. -/
def fill (inputs : Arguments) (template : String) : String :=
  String.ofList (replaceMatches (matchAt inputs) 0 template.toList)

/-- A placeholder stands at the start of its text. -/
theorem eq_append_of_placeholder {text name : List Char} (found : placeholder text = some name) :
    ∃ rest, text = "$inputs.".toList ++ name ++ rest := by
  unfold placeholder at found
  split at found
  · next starts =>
      rcases List.isPrefixOf_iff_prefix.mp starts with ⟨behind, rfl⟩
      have dropped : ("$inputs.".toList ++ behind).drop "$inputs.".length = behind :=
        List.drop_left
      rw [dropped] at found
      cases behind with
      | nil => cases found
      | cons head rest =>
          dsimp only at found
          split at found
          · cases found
            refine ⟨rest.dropWhile continuesName, ?_⟩
            rw [List.append_assoc, List.cons_append, List.takeWhile_append_dropWhile]
          · cases found
  · cases found

/-- A template is its own text where no placeholder names an input. -/
theorem fill_of_unnamed {inputs : Arguments} {template : String}
    (unnamed : ∀ suffix, suffix <:+ template.toList → ∀ name, placeholder suffix = some name →
      Json.lookup (String.ofList name) inputs = none) :
    fill inputs template = template := by
  have own : ∀ suffix, suffix <:+ template.toList → ∀ found, matchAt inputs suffix = some found →
      found.replacement = suffix.take (found.more + 1) := by
    intro suffix behind found isMatch
    rcases Option.map_eq_some_iff.mp isMatch with ⟨name, isName, rfl⟩
    rcases eq_append_of_placeholder isName with ⟨rest, shape⟩
    have taken : "$inputs.".length - 1 + name.length + 1 = ("$inputs.".toList ++ name).length := by
      rw [List.length_append]
      change 7 + name.length + 1 = 8 + name.length
      omega
    unfold replacement
    dsimp only
    rw [unnamed suffix behind name isName, shape, taken, List.take_left]
  unfold fill
  rw [replaceMatches_eq_drop own, List.drop_zero, String.ofList_toList]

/-- `template.get(key, default)`. -/
def field (template : Fields) (key : String) (default : Json) : Json :=
  (Json.lookup key template).getD default

/-- A text, where a model asks for one. -/
def asText : Json → Except Error String
  | .str text => .ok text
  | _ => .error (.other "Input should be a valid string")

/-- `list(value)`, where a model asks for texts. -/
def asTexts : Json → Except Error (List String)
  | .arr items => items.mapM asText
  | .str text => .ok (text.toList.map fun character => String.ofList [character])
  | .obj fields => .ok (fields.map (·.1))
  | value => .error (.other ("'" ++ value.typeName ++ "' object is not iterable"))

/-- The tool of a template, if the skill allows it. -/
def allowedTool (skill : Skill) (tool : Json) : Except Error String :=
  match tool with
  | .str name => if name ∈ skill.allowedTools then .ok name else refused
  | _ => refused
where
  refused := .error (.domainValidation
    ("skill step uses tool " ++ tool.repr ++ " outside allowed_tools"))

/-- The arguments of a template with its texts filled in. -/
def fillArguments (inputs : Arguments) (fields : Fields) : Arguments :=
  fields.map fun entry =>
    match entry.2 with
    | .str text => (entry.1, .str (fill inputs text))
    | _ => entry

variable (tools : ToolRegistry) (inputs : Arguments)

/-- A template makes a step and its arguments. -/
def buildStep (skill : Skill) (index : Nat) (template : Fields) :
    Except Error (PlanStep × Arguments) := do
  let toolName ← allowedTool skill (field template "tool" (.str ""))
  match tools.get toolName with
  | none => throw (.domainValidation ("unknown tool " ++ Text.repr toolName))
  | some known =>
      let stepId := field template "id" (.str ("step-" ++ toString (index + 1)))
      match field template "arguments" (.obj []) with
      | .obj arguments =>
          let id ← asText stepId
          let dependencies ← asTexts (field template "dependencies" (.arr []))
          return ({
            id := id
            description := fill inputs (field template "description" (.str toolName)).text
            dependencies := dependencies
            tools := [toolName]
            risk := known.riskLevel
            verification := (field template "verification" (.str "")).text
            completionCriteria := (field template "completion_criteria" (.str "")).text },
            fillArguments inputs arguments)
      | _ => throw (.domainValidation ("step " ++ stepId.repr ++ " arguments must be a mapping"))

/-- The goal of the plan that a skill is built into. -/
def goalOf (skill : Skill) (goal : String) : String :=
  if goal = "" then "skill:" ++ skill.name ++ " v" ++ skill.version else goal

def finalVerification (skill : Skill) : String :=
  match skill.verification with
  | [] => ""
  | check :: _ => (field check "check" (.str "")).text

/-- The validator of the builder. -/
def validator : PlanValidator where
  knownTools := tools.entries.map fun entry => entry.tool.name

/-- A runnable plan, which draws an id, with the arguments of its steps. -/
def build (planId : String) (skill : Skill) (goal : String) :
    Except Error (Plan × Dict String Arguments) := do
  if skill.status ≠ .active then
    throw (.domainValidation ("skill " ++ Text.repr skill.name ++ " v" ++ skill.version ++
      " is " ++ skill.status.value))
  if skill.workflow.isEmpty then
    throw (.domainValidation ("skill " ++ Text.repr skill.name ++ " has no workflow"))
  let made ← skill.workflow.zipIdx.mapM fun template =>
    buildStep tools inputs skill template.2 template.1
  let plan ← (validator tools).validate {
    id := planId
    goal := goalOf skill goal
    steps := made.map (·.1)
    finalVerification := finalVerification skill }
  return (plan, Dict.empty.update (made.map fun step => (step.1.id, step.2)))

end SkillPlanBuilder

end Raphael.Skills
