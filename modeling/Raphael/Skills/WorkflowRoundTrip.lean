import Raphael.Agent.Planner.TopologicalOrder
import Raphael.Skills.SkillPlanBuilder

/-! # Learned workflows

When the skill that is learned from a plan is built into the same plan again, and a
candidate that is not approved stays pending. -/

namespace Raphael.Skills

open Core Foundation
open Agent.Planner Tools

/-- The calls that learn a plan and build it again: what they are given, the ids that they
draw, and their reading of the clock. -/
structure WorkflowTrip where
  plan : Plan
  name : String
  author : String := ""
  scopeId : String := ""
  candidateId : String
  version : String := "1.0.0"
  now : Int := 0
  skillId : String
  inputs : Arguments := []
  goal : String := ""
  planId : String

namespace WorkflowTrip

variable (text : VersionText) (tools : ToolRegistry) (inbox : SkillInbox) (trip : WorkflowTrip)

def candidate : SkillProposal :=
  proposeFromWorkflow trip.candidateId trip.plan trip.name trip.author trip.scopeId

/-- The skill that is registered on approval. -/
def adopted : Skill := trip.candidate.adopted trip.skillId trip.version trip.now

/-- What a step is without its risk, its arguments and its times. -/
def outline (step : PlanStep) : PlanStep where
  id := step.id
  description := step.description
  dependencies := step.dependencies
  tools := step.tools
  verification := step.verification
  completionCriteria := step.completionCriteria

/-- The approved skill is built into the steps of the plan and their arguments. Where the
approval raises, the candidate is still pending. -/
def RoundTrips : Prop :=
  match SkillInbox.approve text trip.now trip.skillId trip.candidateId trip.version inbox with
  | .ok skill _ => ∃ built collected,
      SkillPlanBuilder.build tools trip.inputs trip.planId skill trip.goal =
          .ok (built, collected) ∧
        built.steps.map outline = trip.plan.steps.map outline ∧
        ∀ step ∈ trip.plan.steps, collected.get step.id = some step.arguments
  | .error _ after => after.candidates.get trip.candidateId = some trip.candidate

/-- A template keeps the whole step: its one tool, which may be planned, its description,
which has no placeholder that is filled in with something else, and no arguments. -/
structure Templated (step : PlanStep) : Prop where
  single : ∃ name tool, step.tools = [name] ∧ tools.get name = some tool ∧
    tool.riskLevel ≠ .critical
  plain : SkillPlanBuilder.fill trip.inputs step.description = step.description
  bare : step.arguments = []

/-- The version is valid, the drawn id is unused, templates keep all the steps, and the
builder accepts the goal and the number of steps. -/
structure Learnable : Prop where
  version : validVersion text trip.version = true
  unused : inbox.skills.get trip.skillId = none
  templated : ∀ step ∈ trip.plan.steps, trip.Templated tools step
  goal : trip.goal = "" ∨ Text.isBlank trip.goal = false
  short : trip.plan.steps.length ≤ 50

variable {text tools inbox trip}

/-! ## Approval -/

theorem approve_of_pending
    (pending : inbox.candidates.get trip.candidateId = some trip.candidate) :
    SkillInbox.approve text trip.now trip.skillId trip.candidateId trip.version inbox =
      SkillInbox.onSkills (SkillRegistry.register text trip.now trip.adopted)
        { inbox with candidates := inbox.candidates.pop trip.candidateId } := by
  unfold SkillInbox.approve
  rw [get_bind_apply, pending]
  rfl

/-- An approval that is refused has lost its candidate. -/
theorem roundTrips_iff_of_pending
    (pending : inbox.candidates.get trip.candidateId = some trip.candidate) :
    RoundTrips text tools inbox trip ↔
      (validVersion text trip.version = true ∧ inbox.skills.get trip.skillId = none) ∧
        ∃ built collected,
          SkillPlanBuilder.build tools trip.inputs trip.planId trip.adopted trip.goal =
              .ok (built, collected) ∧
            built.steps.map outline = trip.plan.steps.map outline ∧
            ∀ step ∈ trip.plan.steps, collected.get step.id = some step.arguments := by
  have ⟨_, named, _⟩ := inbox.candidates.filed _ _ pending
  have accepts : SkillRegistry.Accepts text inbox.skills trip.adopted ↔
      validVersion text trip.version = true ∧ inbox.skills.get trip.skillId = none :=
    and_iff_right named
  rw [← accepts]
  unfold RoundTrips
  rw [approve_of_pending pending]
  unfold SkillInbox.onSkills
  by_cases accepted : SkillRegistry.Accepts text inbox.skills trip.adopted
  · rcases @SkillRepository.create_of_unused trip.now trip.adopted inbox.skills accepted.2.2
      with ⟨next, created, _⟩
    dsimp only
    rw [SkillRegistry.register_of_accepts accepted, created, and_iff_right accepted]
    rfl
  · rcases @SkillRegistry.register_of_not_accepts _ trip.now _ _ accepted with ⟨error, raises⟩
    dsimp only
    rw [raises]
    dsimp only
    rw [SkillCandidateStore.get_pop]
    exact iff_of_false nofun fun both => accepted both.1

/-! ## The plan that is built -/

/-- The step that a template is built into. -/
def rebuilt (tools : ToolRegistry) (trip : WorkflowTrip) (step : PlanStep) : PlanStep where
  id := step.id
  description := SkillPlanBuilder.fill trip.inputs step.description
  dependencies := step.dependencies
  tools := [step.tools.headD ""]
  risk := ((tools.get (step.tools.headD "")).map (·.riskLevel)).getD .low
  verification := step.verification
  completionCriteria := step.completionCriteria

def rebuiltPlan (tools : ToolRegistry) (trip : WorkflowTrip) : Plan where
  id := trip.planId
  goal := SkillPlanBuilder.goalOf trip.adopted trip.goal
  steps := trip.plan.steps.map (rebuilt tools trip)
  finalVerification := trip.plan.finalVerification

/-- What the builder collects: no step has arguments. -/
def collected (trip : WorkflowTrip) : Dict String Arguments :=
  Dict.empty.update (trip.plan.steps.map fun step => (step.id, []))

theorem get_collected (unique : (trip.plan.steps.map (·.id)).Nodup) {step : PlanStep}
    (member : step ∈ trip.plan.steps) : trip.collected.get step.id = some [] := by
  apply Dict.get_update_of_mem
  · rwa [List.map_map]
  · exact List.mem_map_of_mem member

theorem allowed_of_mem {step : PlanStep} (member : step ∈ trip.plan.steps) {name : String}
    (named : name ∈ step.tools) : name ∈ trip.adopted.allowedTools := by
  change name ∈ (trip.plan.steps.flatMap (·.tools)).dedup.insertionSort (· ≤ ·)
  rw [List.mem_insertionSort, List.mem_dedup, List.mem_flatMap]
  exact ⟨step, member, named⟩

theorem asTexts_texts (texts : List String) :
    SkillPlanBuilder.asTexts (.arr (texts.map .str)) = .ok texts := by
  change (texts.map Json.str).mapM SkillPlanBuilder.asText = _
  induction texts with
  | nil => rfl
  | cons head rest induction =>
      rw [List.map_cons, List.mapM_cons, induction]
      rfl

theorem buildStep_stepTemplate {step : PlanStep} (member : step ∈ trip.plan.steps)
    (named : step.tools.headD "" ∈ step.tools)
    (registered : (tools.get (step.tools.headD "")).isSome) (index : Nat) :
    SkillPlanBuilder.buildStep tools trip.inputs trip.adopted index (stepTemplate step) =
      .ok (rebuilt tools trip step, []) := by
  rcases Option.isSome_iff_exists.mp registered with ⟨known, found⟩
  have allowed : SkillPlanBuilder.allowedTool trip.adopted (.str (step.tools.headD "")) =
      .ok (step.tools.headD "") := if_pos (allowed_of_mem member named)
  have tool : SkillPlanBuilder.field (stepTemplate step) "tool" (.str "") =
      .str (step.tools.headD "") := by
    simp [-List.headD_eq_head?_getD, SkillPlanBuilder.field, stepTemplate, Json.lookup]
  unfold SkillPlanBuilder.buildStep rebuilt
  rw [tool, allowed, found]
  simp only [bind, Except.bind]
  rw [found]
  simp [-List.headD_eq_head?_getD, SkillPlanBuilder.field, stepTemplate, Json.lookup,
    asTexts_texts, SkillPlanBuilder.asText, Json.text]
  rfl

section Built

variable (named : ∀ step ∈ trip.plan.steps, step.tools.headD "" ∈ step.tools)
  (registered : ∀ step ∈ trip.plan.steps, (tools.get (step.tools.headD "")).isSome)

include named registered

theorem mapM_buildStep :
    (trip.adopted.workflow.zipIdx.mapM fun template =>
      SkillPlanBuilder.buildStep tools trip.inputs trip.adopted template.2 template.1) =
        .ok (trip.plan.steps.map fun step => (rebuilt tools trip step, [])) := by
  have each : ∀ indexed ∈ trip.plan.steps.zipIdx,
      SkillPlanBuilder.buildStep tools trip.inputs trip.adopted indexed.2
        (stepTemplate indexed.1) = .ok (rebuilt tools trip indexed.1, []) := by
    rintro ⟨step, index⟩ listed
    have member := List.fst_mem_of_mem_zipIdx listed
    exact buildStep_stepTemplate member (named step member) (registered step member) index
  change ((trip.plan.steps.map stepTemplate).zipIdx.mapM _) = _
  rw [List.zipIdx_map, List.mapM_map]
  refine (mapM_ok each).trans ?_
  conv_rhs => rw [← List.zipIdx_map_fst 0 trip.plan.steps, List.map_map]
  rfl

/-- The builder makes a plan of all the templates and hands it to its validator. -/
theorem build_adopted (nonempty : trip.plan.steps ≠ []) :
    SkillPlanBuilder.build tools trip.inputs trip.planId trip.adopted trip.goal =
      (SkillPlanBuilder.validator tools).validate (rebuiltPlan tools trip) >>= fun built =>
        pure (built, trip.collected) := by
  have filled : ¬ trip.adopted.workflow.isEmpty = true := by
    change ¬ (trip.plan.steps.map stepTemplate).isEmpty = true
    rwa [List.isEmpty_iff, List.map_eq_nil_iff]
  have active : ¬ trip.adopted.status ≠ .active := not_not.mpr rfl
  unfold SkillPlanBuilder.build
  rw [if_neg active]
  dsimp only
  rw [if_neg filled, mapM_buildStep named registered]
  simp only [bind, Except.bind, List.map_map]
  rfl

/-- The steps come back exactly when the validator accepts them, each comes back in outline,
and none has arguments. -/
theorem builds_iff (nonempty : trip.plan.steps ≠ [])
    (unique : (trip.plan.steps.map (·.id)).Nodup) :
    (∃ built arguments,
      SkillPlanBuilder.build tools trip.inputs trip.planId trip.adopted trip.goal =
          .ok (built, arguments) ∧
        built.steps.map outline = trip.plan.steps.map outline ∧
        ∀ step ∈ trip.plan.steps, arguments.get step.id = some step.arguments) ↔
      (SkillPlanBuilder.validator tools).validate (rebuiltPlan tools trip) =
          .ok (rebuiltPlan tools trip) ∧
        ∀ step ∈ trip.plan.steps,
          outline (rebuilt tools trip step) = outline step ∧ step.arguments = [] := by
  have outlines : (rebuiltPlan tools trip).steps.map outline = trip.plan.steps.map outline ↔
      ∀ step ∈ trip.plan.steps, outline (rebuilt tools trip step) = outline step := by
    unfold rebuiltPlan
    rw [List.map_map]
    exact List.map_inj_left
  rw [build_adopted named registered nonempty]
  constructor
  · rintro ⟨built, arguments, returns, same, kept⟩
    rcases except_bind_eq_ok.mp returns with ⟨checked, accepted, returned⟩
    cases PlanValidator.eq_of_validate accepted
    cases returned
    refine ⟨accepted, fun step member => ⟨outlines.mp same step member, ?_⟩⟩
    exact (Option.some.inj ((get_collected unique member).symm.trans (kept step member))).symm
  · rintro ⟨accepted, each⟩
    refine ⟨rebuiltPlan tools trip, trip.collected, ?_, ?_, ?_⟩
    · exact except_bind_eq_ok.mpr ⟨_, accepted, rfl⟩
    · exact outlines.mpr fun step member => (each step member).1
    · intro step member
      rw [get_collected unique member, (each step member).2]

end Built

/-- A step that is built from an accepted one passes unless its description has become blank
or its tool is critical. -/
theorem validateStep_rebuilt_iff {given : PlanValidator} {step : PlanStep}
    (valid : given.validateStep step = .ok ())
    (registered : (tools.get (step.tools.headD "")).isSome) :
    (SkillPlanBuilder.validator tools).validateStep (rebuilt tools trip step) = .ok () ↔
      Text.isBlank (SkillPlanBuilder.fill trip.inputs step.description) = false ∧
        (rebuilt tools trip step).risk ≠ .critical := by
  have ⟨_, _, _, _, _, _, criteria, verification⟩ :=
    (PlanValidator.validateStep_eq_ok_iff given).mp valid
  have known : step.tools.headD "" ∈ (SkillPlanBuilder.validator tools).knownTools :=
    ToolRegistry.isSome_get_iff.mp registered
  have unasked : ∀ name,
      (SkillPlanBuilder.validator tools).validateArguments (rebuilt tools trip step) name =
        .ok () := by
    intro name
    apply (PlanValidator.validateArguments_eq_ok_iff _ rfl).mpr
    refine ⟨fun parameter asked => ?_, rfl⟩
    cases (PlanValidator.mem_required _).mp asked
  rw [PlanValidator.validateStep_eq_ok_iff]
  constructor
  · rintro ⟨described, _, _, _, _, risk, _⟩
    exact ⟨described, risk⟩
  · rintro ⟨described, risk⟩
    refine ⟨described, List.cons_ne_nil _ _, ?_, ?_, fun name _ => unasked name, risk,
      criteria, verification⟩
    · exact List.forall_mem_singleton.mpr known
    · change (Json.obj []).defaultText.length ≤ max 1024 65536
      decide

/-- The goal that is made of the name and the version is not blank. -/
theorem goalOf_isBlank {skill : Skill} {goal : String} :
    Text.isBlank (SkillPlanBuilder.goalOf skill goal) = false ↔
      goal = "" ∨ Text.isBlank goal = false := by
  unfold SkillPlanBuilder.goalOf
  by_cases unset : goal = ""
  · rw [if_pos unset]
    refine iff_of_true ?_ (.inl unset)
    simp [Text.isBlank, Text.isSpace]
  · rw [if_neg unset, or_iff_right unset]

/-- The builder accepts what it makes of an accepted plan exactly when goal, length,
descriptions and risks are accepted. -/
theorem validate_rebuiltPlan_iff {given : PlanValidator}
    (valid : given.validate trip.plan = .ok trip.plan)
    (registered : ∀ step ∈ trip.plan.steps, (tools.get (step.tools.headD "")).isSome) :
    (SkillPlanBuilder.validator tools).validate (rebuiltPlan tools trip) =
        .ok (rebuiltPlan tools trip) ↔
      (trip.goal = "" ∨ Text.isBlank trip.goal = false) ∧ trip.plan.steps.length ≤ 50 ∧
        ∀ step ∈ trip.plan.steps,
          Text.isBlank (SkillPlanBuilder.fill trip.inputs step.description) = false ∧
            (rebuilt tools trip step).risk ≠ .critical := by
  have ⟨_, nonempty, _, named, unique, each, ⟨sorted, ordered⟩, verification⟩ :=
    (PlanValidator.validate_eq_ok_iff given).mp valid
  have ids : (rebuiltPlan tools trip).steps.map (·.id) = trip.plan.steps.map (·.id) := by
    unfold rebuiltPlan
    rw [List.map_map]
    rfl
  have nonemptyBuilt : (rebuiltPlan tools trip).steps ≠ [] :=
    fun none => nonempty (List.map_eq_nil_iff.mp none)
  have length : (rebuiltPlan tools trip).steps.length = trip.plan.steps.length :=
    List.length_map _
  have orderedBuilt : ∃ sorted, DependencyResolver.order (rebuiltPlan tools trip).steps =
      .ok sorted :=
    DependencyResolver.exists_order_map (fun _ => rfl) (fun _ => rfl) unique ordered
  have steps : (∀ step ∈ (rebuiltPlan tools trip).steps,
      (SkillPlanBuilder.validator tools).validateStep step = .ok ()) ↔
        ∀ step ∈ trip.plan.steps,
          Text.isBlank (SkillPlanBuilder.fill trip.inputs step.description) = false ∧
            (rebuilt tools trip step).risk ≠ .critical := by
    refine List.forall_mem_map.trans (forall₂_congr fun step member => ?_)
    exact validateStep_rebuilt_iff (each step member) (registered step member)
  rw [PlanValidator.validate_eq_ok_iff, ids, length, steps]
  constructor
  · rintro ⟨goal, _, short, _, _, fits, _⟩
    exact ⟨goalOf_isBlank.mp goal, short, fits⟩
  · rintro ⟨goal, short, fits⟩
    exact ⟨goalOf_isBlank.mpr goal, nonemptyBuilt, short, named, unique, fits, orderedBuilt,
      verification⟩

/-! ## The round trip -/

/-- A template keeps a step exactly when the step that it is built into has the same outline,
no arguments are lost and the builder accepts its risk. -/
theorem templated_iff {step : PlanStep}
    (registered : (tools.get (step.tools.headD "")).isSome) :
    trip.Templated tools step ↔
      outline (rebuilt tools trip step) = outline step ∧ step.arguments = [] ∧
        (rebuilt tools trip step).risk ≠ .critical := by
  rcases Option.isSome_iff_exists.mp registered with ⟨known, found⟩
  have risk : (rebuilt tools trip step).risk = known.riskLevel := by
    unfold rebuilt
    dsimp only
    rw [found]
    rfl
  have same : outline (rebuilt tools trip step) = outline step ↔
      SkillPlanBuilder.fill trip.inputs step.description = step.description ∧
        [step.tools.headD ""] = step.tools := by
    unfold outline rebuilt
    rw [PlanStep.mk.injEq]
    simp only [true_and, and_true]
  rw [same, risk]
  constructor
  · rintro ⟨⟨name, tool, single, isTool, planned⟩, plain, bare⟩
    rw [single] at found
    cases isTool.symm.trans found
    exact ⟨⟨plain, by rw [single]; rfl⟩, bare, planned⟩
  · rintro ⟨⟨plain, single⟩, bare, planned⟩
    exact ⟨⟨step.tools.headD "", known, single.symm, found, planned⟩, plain, bare⟩

/-- A learned workflow is built into the plan that it was learned from, or stays pending,
exactly when it is learnable. -/
theorem learned_roundTrips_iff {given : PlanValidator} {validated : Plan}
    (valid : given.validate trip.plan = .ok validated)
    (registered : ∀ step ∈ trip.plan.steps, ∀ name ∈ step.tools, (tools.get name).isSome)
    (pending : inbox.candidates.get trip.candidateId = some trip.candidate) :
    RoundTrips text tools inbox trip ↔ Learnable text tools inbox trip := by
  cases PlanValidator.eq_of_validate valid
  have ⟨_, nonempty, _, _, unique, each, _⟩ :=
    (PlanValidator.validate_eq_ok_iff given).mp valid
  have named : ∀ step ∈ trip.plan.steps, step.tools.headD "" ∈ step.tools := by
    intro step member
    have ⟨_, anyTool, _⟩ := (PlanValidator.validateStep_eq_ok_iff given).mp (each step member)
    cases listed : step.tools with
    | nil => exact absurd listed anyTool
    | cons name rest => exact List.mem_cons_self
  have first : ∀ step ∈ trip.plan.steps, (tools.get (step.tools.headD "")).isSome :=
    fun step member => registered step member _ (named step member)
  rw [roundTrips_iff_of_pending pending, builds_iff named first nonempty unique,
    validate_rebuiltPlan_iff valid first]
  constructor
  · rintro ⟨⟨version, unused⟩, ⟨goal, short, fits⟩, same⟩
    refine ⟨version, unused, fun step member => ?_, goal, short⟩
    have ⟨sameOutline, bare⟩ := same step member
    exact (templated_iff (first step member)).mpr ⟨sameOutline, bare, (fits step member).2⟩
  · rintro ⟨version, unused, templated, goal, short⟩
    refine ⟨⟨version, unused⟩, ⟨goal, short, fun step member => ?_⟩, fun step member => ?_⟩
    · have ⟨described, _⟩ := (PlanValidator.validateStep_eq_ok_iff given).mp (each step member)
      have ⟨_, _, planned⟩ := (templated_iff (first step member)).mp (templated step member)
      rw [(templated step member).plain]
      exact ⟨described, planned⟩
    · have ⟨sameOutline, bare, _⟩ :=
        (templated_iff (first step member)).mp (templated step member)
      exact ⟨sameOutline, bare⟩

/-! ## A plan of one step -/

def readTools : ToolRegistry where
  entries := [{ tool := { name := "read" }, handler := fun _ => .result { success := true } }]

def readPlan (arguments : Arguments) : Plan where
  id := "plan"
  goal := "look into the notes"
  steps := [{
    id := "s1"
    description := "read the notes"
    tools := ["read"]
    verification := "there is a text"
    arguments := arguments
    completionCriteria := "read" }]
  finalVerification := "the notes are read"

def readTrip (arguments : Arguments) (version : String) : WorkflowTrip where
  plan := readPlan arguments
  name := "reader"
  candidateId := "candidate"
  version := version
  skillId := "skill"
  planId := "built"

theorem readTrip_registered (arguments : Arguments) (version : String) :
    ∀ step ∈ (readTrip arguments version).plan.steps, ∀ name ∈ step.tools,
      (readTools.get name).isSome := by
  intro step member name listed
  cases List.mem_singleton.mp member
  cases List.mem_singleton.mp listed
  rfl

theorem roundTrips_read : ∃ store,
    SkillCandidateStore.propose {} (readTrip [] "1.0.0").candidate = .ok store ∧
      RoundTrips asciiText readTools { candidates := store, skills := .empty "skills" }
        (readTrip [] "1.0.0") := by
  have named : (readTrip [] "1.0.0").candidate.name ≠ "" := by decide
  rcases SkillCandidateStore.propose_pending {} named rfl with ⟨store, filed, pending⟩
  have valid : PlanValidator.validate { knownTools := ["read"] } (readTrip [] "1.0.0").plan =
      .ok (readTrip [] "1.0.0").plan := rfl
  refine ⟨store, filed,
    (learned_roundTrips_iff valid (readTrip_registered [] "1.0.0") pending).mpr ?_⟩
  refine ⟨by decide, rfl, fun step member => ?_, .inl rfl, by decide⟩
  cases List.mem_singleton.mp member
  exact ⟨⟨"read", _, rfl, rfl, by decide⟩,
    SkillPlanBuilder.fill_of_unnamed fun _ _ _ _ => rfl, rfl⟩

/-- The path that the step reads is lost, and so is a candidate that is approved under an
invalid version. -/
theorem readTrip_loses : ∃ store,
    PlanValidator.validate { knownTools := ["read"] } (readPlan [("path", .str "notes.txt")]) =
        .ok (readPlan [("path", .str "notes.txt")]) ∧
      SkillCandidateStore.propose {}
        (readTrip [("path", .str "notes.txt")] "1.0.0").candidate = .ok store ∧
      ¬ RoundTrips asciiText readTools { candidates := store, skills := .empty "skills" }
        (readTrip [("path", .str "notes.txt")] "1.0.0") ∧
      ¬ RoundTrips asciiText readTools { candidates := store, skills := .empty "skills" }
        (readTrip [("path", .str "notes.txt")] "") := by
  have named : (readTrip [("path", .str "notes.txt")] "1.0.0").candidate.name ≠ "" := by decide
  rcases SkillCandidateStore.propose_pending {} named rfl with ⟨store, filed, pending⟩
  refine ⟨store, rfl, filed, fun trips => ?_, fun trips => ?_⟩
  · have ⟨_, builds⟩ := (roundTrips_iff_of_pending pending).mp trips
    have first : ∀ step ∈ (readPlan [("path", .str "notes.txt")]).steps,
        step.tools.headD "" ∈ step.tools := by
      decide
    have registered : ∀ step ∈ (readPlan [("path", .str "notes.txt")]).steps,
        (readTools.get (step.tools.headD "")).isSome := by
      decide
    have ⟨_, each⟩ := (builds_iff first registered (by decide) (by decide)).mp builds
    cases (each _ List.mem_cons_self).2
  · have ⟨⟨valid, _⟩, _⟩ := (roundTrips_iff_of_pending pending).mp trips
    cases valid

end WorkflowTrip

end Raphael.Skills
