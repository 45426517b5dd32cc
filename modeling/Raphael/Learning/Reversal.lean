import Mathlib.Algebra.GroupWithZero.Nat
import Raphael.Learning.Pipeline

/-! # Reversing an adoption

An adoption saves a profile with the content of the proposal as its only workflow, and a
rollback saves one without it. What was preferred before is kept and comes back exactly if
the adopted profile hides nothing that it does not inherit. -/

namespace Raphael.Learning

open Foundation Persistence Personalization
open PreferenceStore LearningPipeline

variable {Score : Type} {table next final : PreferenceTable} {content projectId : String}
  {stamp : Stamp} {adopted saved created current : PreferenceProfile} {now later : Int}

/-! ## What the calls do -/

/-- The profile that an adoption saves. -/
def adoptedFrom (stamp : Stamp) (content projectId : String) : PreferenceProfile :=
  { PreferenceProfile.fresh stamp with
    scope := if projectId ≠ "" then .project else .global
    scopeId := projectId
    preferredWorkflows := [content] }

/-- The proposal when its profile is saved. -/
def noted (proposal : LearningProposal Score) (created : PreferenceProfile) :
    LearningProposal Score :=
  { proposal with
    status := .adopted
    provenance := (((proposal.provenance.set "adopted_scope" (.str created.scope.value)).set
      "adopted_scope_id" (.str created.scopeId)).set "adopted_object" (.str created.id)).set
      "adopted_target" (.str "preference") }

section Calls

variable {pipeline : LearningPipeline Score} {proposal : LearningProposal Score}
  {proposalId : String} {stores : Stores Score} {state : LearningState Score}
  {occasion : Occasion}

section Approval

variable [LT Score] [DecidableLT Score]

/-- The proposal is valid, and it is adopted as a preference when it is approved. -/
structure LearningPipeline.Adopts (pipeline : LearningPipeline Score)
    (proposal : LearningProposal Score) : Prop where
  valid : (pipeline.validate proposal).1 = true
  governed : (pipeline.governor.any fun governor => !governor.mayAdopt proposal) = false
  proposed : proposal.status = .proposed
  kind : proposal.kind ≠ .communication

theorem ProposalEngine.adoptToPreferences_ok (adopts : pipeline.Adopts proposal)
    (saves : save state.preferences occasion.now
      (adoptedFrom occasion.toStamp proposal.content projectId) = .ok (next, created)) :
    ProposalEngine.adoptToPreferences occasion proposal projectId state = .ok
      ({ proposal with
        status := .adopted
        provenance := (proposal.provenance.set "adopted_scope"
          (.str created.scope.value)).set "adopted_scope_id" (.str created.scopeId) }, created)
      { state with preferences := next } := by
  have fresh : ¬ proposal.status ≠ .proposed := not_not.mpr adopts.proposed
  simp only [adoptedFrom] at saves
  simp only [ProposalEngine.adoptToPreferences, ProposalEngine.requireProposed, bind_apply,
    if_neg fresh, if_neg adopts.kind, savePreference, pure_apply, saves]

variable [LE Score] [DecidableLE Score] [Zero Score] [One Score]

theorem LearningPipeline.approve_preference (adopts : pipeline.Adopts proposal)
    (stored : state.proposals.get proposalId = some proposal)
    (provided : stores.preferences = true)
    (saves : save state.preferences occasion.now
      (adoptedFrom occasion.toStamp proposal.content projectId) = .ok (next, created)) :
    pipeline.approve occasion proposalId "preference" stores projectId state =
      .ok (.preference created) { state with
        preferences := next
        proposals := (state.proposals.update occasion.later (noted proposal created)).1 } := by
  have adopted : LearningPipeline.adopt occasion proposal "preference" stores projectId
      state = .ok ({ proposal with
        status := .adopted
        provenance := (proposal.provenance.set "adopted_scope"
          (.str created.scope.value)).set "adopted_scope_id" (.str created.scopeId) },
        .preference created) { state with preferences := next } := by
    have other : ¬ ("preference" : String) = "memory" := by decide
    simp only [LearningPipeline.adopt, if_neg other, if_true, provided, Bool.not_true,
      Bool.false_eq_true, if_false, bind_apply,
      ProposalEngine.adoptToPreferences_ok adopts saves, pure_apply]
  simp only [LearningPipeline.approve, bind_apply, getProposal, stored, adopts.valid,
    adopts.governed, Bool.not_true, Bool.false_eq_true, if_false, adopted, updateProposal]
  rfl

end Approval

/-- What is read back of a proposal when its profile is saved. -/
theorem get_noted (proposal : LearningProposal Score) (created : PreferenceProfile) :
    (noted proposal created).provenance.get "adopted_target" = some (.str "preference") ∧
      (noted proposal created).provenance.get "adopted_scope_id" =
        some (.str created.scopeId) := by
  simp [noted, Dict.get_set]

/-- The rollback of a proposal whose profile is found. -/
theorem LearningPipeline.rollback_preference
    (stored : state.proposals.get proposalId = some proposal)
    (status : proposal.status = .adopted)
    (target : proposal.provenance.get "adopted_target" = some (.str "preference"))
    (provided : stores.preferences = true)
    (found : adoptedProfile occasion.toStamp proposal state = .ok current state)
    (saves : save state.preferences occasion.now
      (reverted occasion.toStamp proposal.content current) = .ok (final, saved)) :
    rollback occasion proposalId stores state = .ok true { state with
      preferences := final
      proposals := (state.proposals.update occasion.later { proposal with
        status := .rolledBack
        provenance := proposal.provenance.set "rolled_back" (.bool true) }).1 } := by
  have adopted : ¬ proposal.status ≠ .adopted := not_not.mpr status
  have other : ¬ ("preference" : String) = "memory" := by decide
  simp only [rollback, bind_apply, getProposal, stored, if_neg adopted, provenanceText, target,
    if_neg other, if_true, provided, Bool.not_true, Bool.false_eq_true, if_false,
    revertPreference, found, savePreference, saves, updateProposal, pure_apply]

end Calls

/-! ## What is effective -/

/-- What is preferred in a project, or outside all of them. -/
def effective (table : PreferenceTable) (stamp : Stamp) (project : String) : Preferences :=
  (getEffective table stamp project).preferences

/-- Everything is kept, and nothing but the content is added to the workflows. -/
structure Extends (content : String) (before after : Preferences) : Prop where
  workflows : ∀ workflow ∈ before.workflows, workflow ∈ after.workflows
  added : ∀ workflow ∈ after.workflows, workflow ∈ before.workflows ∨ workflow = content
  tools : after.tools = before.tools
  format : after.format = before.format
  defaults : after.defaults = before.defaults

theorem Extends.refl (content : String) (preferences : Preferences) :
    Extends content preferences preferences :=
  ⟨fun _ => id, fun _ => Or.inl, rfl, rfl, rfl⟩

/-- In place of workflows that are all the content. -/
theorem Extends.of_single {base : Preferences}
    (single : ∀ workflow ∈ base.workflows, workflow = content) :
    Extends content base { base with workflows := [content] } where
  workflows workflow member := List.mem_singleton.mpr (single workflow member)
  added _ member := Or.inr (List.mem_singleton.mp member)
  tools := rfl
  format := rfl
  defaults := rfl

/-- What overrides both keeps the one within the other. -/
theorem Extends.overriddenBy {before after : Preferences}
    (extension : Extends content before after) (own : Preferences) :
    Extends content (before.overriddenBy own) (after.overriddenBy own) := by
  simp only [Preferences.overriddenBy]
  constructor
  · by_cases given : own.workflows ≠ []
    · simp only [if_pos given, imp_self, implies_true]
    · simpa only [if_neg given] using extension.workflows
  · by_cases given : own.workflows ≠ []
    · simp only [if_pos given]
      exact fun _ => Or.inl
    · simpa only [if_neg given] using extension.added
  · simp only [extension.tools]
  · simp only [extension.format]
  · simp only [extension.defaults]

/-- What an adoption keeps and adds in every project, and what is there behind the
rollback. -/
def Undoes (table next final : PreferenceTable) (stamp : Stamp) (content projectId : String) :
    Prop :=
  content ∈ (effective next stamp projectId).workflows ∧
    ∀ project, Extends content (effective table stamp project) (effective next stamp project) ∧
      effective final stamp project = effective table stamp project

/-- What a project inherits; outside of them it is what a fresh profile says. -/
def inherited (table : PreferenceTable) (stamp : Stamp) (projectId : String) : Preferences :=
  if projectId = "" then {} else (getGlobal table stamp).preferences

/-- The adopted profile hides nothing: what is effective is inherited, all workflows are the
content already, and outside of the projects no global profile is above the new version. -/
structure HidesNothing (table : PreferenceTable) (stamp : Stamp) (now : Int)
    (content projectId : String) : Prop where
  inherits : effective table stamp projectId = inherited table stamp projectId
  single : ∀ workflow ∈ (inherited table stamp projectId).workflows, workflow = content
  topmost : projectId = "" → ∀ profile ∈ table.rows, profile.scope = .global →
    order profile ≤ toLex (nextVersion table .global "", now)

theorem effective_of_empty (table : PreferenceTable) (stamp : Stamp) :
    effective table stamp "" = (getGlobal table stamp).preferences := by
  rw [effective, preferences_getEffective, if_pos rfl]

/-- What is effective in a project, by the global profile and its own. -/
theorem effective_of_project (table : PreferenceTable) (stamp : Stamp) {project : String}
    (nonempty : project ≠ "") :
    effective table stamp project =
      match getProject table project with
      | none => (getGlobal table stamp).preferences
      | some own => (getGlobal table stamp).preferences.overriddenBy own.preferences := by
  cases found : getProject table project with
  | none => simp [effective, preferences_getEffective, nonempty, found]
  | some own => simp [effective, preferences_getEffective, nonempty, found]

/-- The content is a part of itself, so that nothing is left of it. -/
theorem reverted_of_content (stamp : Stamp) (content : String) (current : PreferenceProfile) :
    content ∉ (reverted stamp content current).preferredWorkflows := by
  intro member
  have kept := List.of_mem_filter member
  simp at kept

/-- A rollback leaves an adopted profile without any preferences. -/
theorem preferences_reverted_adopted (stamp : Stamp) (content : String)
    (workflows : current.preferences = { workflows := [content] }) :
    (reverted stamp content current).preferences = {} := by
  injection workflows with workflows tools format defaults
  simp [PreferenceProfile.preferences, reverted, workflows, tools, format, defaults]
  rfl

/-! ## Adoption -/

section Adoption

/-- The profile that was adopted. -/
theorem save_adoptedFrom
    (adopts : save table now (adoptedFrom stamp content projectId) = .ok (next, adopted)) :
    adopted.preferences = { workflows := [content] } ∧
    adopted.scope = (if projectId ≠ "" then .project else .global) ∧
    adopted.scopeId = projectId ∧
    order adopted = toLex (nextVersion table adopted.scope projectId, now) := by
  rcases save_eq_ok adopts with ⟨rfl, _⟩
  exact ⟨rfl, rfl, rfl, rfl⟩

/-- The profile that is saved at a rollback. -/
theorem save_reverted (reverts : save next later (reverted stamp content current) =
      .ok (final, saved)) :
    saved.preferences = (reverted stamp content current).preferences ∧
      saved.scope = current.scope := by
  rcases save_eq_ok reverts with ⟨rfl, _⟩
  exact ⟨rfl, rfl⟩

variable {third reading : Stamp}

/-- In a project it is undone exactly if the adopted profile hides nothing. -/
theorem undoes_project_iff (nonempty : projectId ≠ "")
    (adopts : save table now (adoptedFrom stamp content projectId) = .ok (next, adopted))
    (reverts : save next later (reverted third content adopted) = .ok (final, saved)) :
    Undoes table next final reading content projectId ↔
      HidesNothing table reading now content projectId := by
  rcases save_adoptedFrom adopts with ⟨first, scope, scopeId, _⟩
  have second := (save_reverted reverts).1.trans
    (preferences_reverted_adopted third content first)
  have inProject : (adoptedFrom stamp content projectId).scope = .project := if_pos nonempty
  have adoptedId : (adoptedFrom stamp content projectId).scopeId = projectId := rfl
  have revertedId : (reverted third content adopted).scopeId = projectId := scopeId
  rw [if_pos nonempty] at scope
  rcases save_project adopts inProject with ⟨globalNext, projectNext⟩
  rcases save_project reverts scope with ⟨globalFinal, projectFinal⟩
  rw [adoptedId] at projectNext
  rw [revertedId] at projectFinal
  have afterwards : effective next reading projectId =
      { (getGlobal table reading).preferences with workflows := [content] } := by
    rw [effective_of_project next reading nonempty, globalNext, projectNext, if_pos rfl]
    dsimp only
    rw [first, Preferences.overriddenBy_workflows, if_pos (List.cons_ne_nil content [])]
  have back : effective final reading projectId = (getGlobal table reading).preferences := by
    rw [effective_of_project final reading nonempty, globalFinal, globalNext, projectFinal,
      if_pos rfl]
    dsimp only
    rw [second]
    rfl
  have others : ∀ project ≠ projectId,
      effective next reading project = effective table reading project ∧
        effective final reading project = effective table reading project := by
    intro project differs
    by_cases empty : project = ""
    · subst empty
      simp only [effective_of_empty, globalFinal, globalNext, and_self]
    · simp only [effective_of_project _ reading empty, globalFinal, globalNext, projectFinal,
        projectNext, if_neg differs, and_self]
  constructor
  · rintro ⟨_, undone⟩
    rcases undone projectId with ⟨extension, restored⟩
    rw [back] at restored
    refine ⟨?_, ?_, fun empty => absurd empty nonempty⟩
    · rw [inherited, if_neg nonempty, restored]
    · rw [inherited, if_neg nonempty, restored]
      intro workflow member
      have kept := extension.workflows workflow member
      rw [afterwards] at kept
      exact List.mem_singleton.mp kept
  · rintro ⟨inherits, single, _⟩
    rw [inherited, if_neg nonempty] at inherits single
    refine ⟨?_, fun project => ?_⟩
    · rw [afterwards]
      exact List.mem_singleton_self content
    · by_cases own : project = projectId
      · subst own
        rw [back, afterwards, inherits]
        exact ⟨.of_single single, rfl⟩
      · rw [(others project own).1]
        exact ⟨.refl content _, (others project own).2⟩

/-- A rollback of the last global profile leaves it without the content. -/
theorem effective_of_reverted (scope : current.scope = .global)
    (found : PreferenceStore.last (next.list.filter isGlobal) = some current)
    (reverts : save next later (reverted third content current) = .ok (final, saved)) :
    (∀ reading, (getGlobal final reading).preferences =
      (reverted third content current).preferences) ∧
      ∀ other, getProject final other = getProject next other := by
  rcases save_reverted reverts with ⟨same, savedScope⟩
  have isLast := last_save_over reverts found
    (isGlobal_iff.mpr (savedScope.trans scope)) rfl rfl
  constructor
  · intro reading
    rw [getGlobal, isLast, ← same]
    rfl
  · exact save_global reverts scope

/-- If the adopted profile is the last global one, it is undone exactly if nothing was
preferred globally. -/
theorem undoes_global_of_topmost
    (adopts : save table now (adoptedFrom stamp content "") = .ok (next, adopted))
    (isLast : last (next.list.filter isGlobal) = some adopted)
    (reverts : save next later (reverted third content adopted) = .ok (final, saved)) :
    Undoes table next final reading content "" ↔ effective table reading "" = {} := by
  rcases save_adoptedFrom adopts with ⟨first, scope, _⟩
  have unscoped : adopted.scope = .global := scope
  rcases effective_of_reverted unscoped isLast reverts with ⟨globalFinal, projectFinal⟩
  have globalNext : (getGlobal next reading).preferences = { workflows := [content] } := by
    rw [getGlobal, isLast, ← first]
    rfl
  have projectNext := save_global adopts rfl
  have emptied : (getGlobal final reading).preferences = {} :=
    (globalFinal reading).trans (preferences_reverted_adopted third content first)
  constructor
  · rintro ⟨_, undone⟩
    rw [← (undone "").2, effective_of_empty, emptied]
  · intro fresh
    rw [effective_of_empty] at fresh
    refine ⟨?_, fun project => ?_⟩
    · rw [effective_of_empty, globalNext]
      exact List.mem_singleton_self content
    · have extension : Extends content {} { workflows := [content] } :=
        .of_single fun _ member => absurd member List.not_mem_nil
      by_cases empty : project = ""
      · subst empty
        rw [effective_of_empty, effective_of_empty, effective_of_empty, globalNext, emptied,
          fresh]
        exact ⟨extension, rfl⟩
      · rw [effective_of_project table reading empty, effective_of_project next reading empty,
          effective_of_project final reading empty, projectFinal, projectNext, globalNext,
          emptied, fresh]
        cases getProject table project with
        | none => exact ⟨extension, rfl⟩
        | some own => exact ⟨extension.overriddenBy own.preferences, rfl⟩

/-- If another global profile stays the last one, either nothing is added, or the rollback
takes away what was there. -/
theorem not_undoes_of_above
    (isLast : last (next.list.filter isGlobal) = some current)
    (wasLast : last (table.list.filter isGlobal) = some current)
    (scope : current.scope = .global)
    (reverts : save next later (reverted third content current) = .ok (final, saved)) :
    ¬ Undoes table next final reading content "" := by
  rintro ⟨added, undone⟩
  have same : getGlobal next reading = getGlobal table reading := by
    rw [getGlobal, getGlobal, isLast, wasLast]
  have restored := (undone "").2
  rw [effective_of_empty, effective_of_empty,
    (effective_of_reverted scope isLast reverts).1] at restored
  rw [effective_of_empty, same, ← restored] at added
  exact reverted_of_content third content current added

/-- Outside of the projects it is undone exactly if the adopted profile hides nothing. -/
theorem undoes_global_iff
    (adopts : save table now (adoptedFrom stamp content "") = .ok (next, adopted))
    (isLast : last (next.list.filter isGlobal) = some current)
    (reverts : save next later (reverted third content current) = .ok (final, saved)) :
    Undoes table next final reading content "" ↔ HidesNothing table reading now content "" := by
  rcases save_adoptedFrom adopts with ⟨_, scope, _, version⟩
  have unscoped : adopted.scope = .global := scope
  have selected : isGlobal adopted = true := isGlobal_iff.mpr unscoped
  rw [unscoped] at version
  by_cases topmost : ∀ profile ∈ table.rows.filter isGlobal, order profile ≤ order adopted
  · have own := last_save_of_le adopts selected topmost
    cases isLast.symm.trans own
    rw [undoes_global_of_topmost adopts isLast reverts]
    constructor
    · intro fresh
      refine ⟨fresh, fun _ member => absurd member List.not_mem_nil, ?_⟩
      intro _ profile stored global
      rw [← version]
      exact topmost profile (List.mem_filter.mpr ⟨stored, isGlobal_iff.mpr global⟩)
    · exact HidesNothing.inherits
  · refine iff_of_false ?_ ?_
    · push Not at topmost
      rcases topmost with ⟨above, member, less⟩
      rcases last_save_of_lt adopts selected member less with ⟨last, stored, was, is⟩
      cases isLast.symm.trans is
      exact not_undoes_of_above isLast was (isGlobal_iff.mp (List.mem_filter.mp stored).2)
        reverts
    · intro hides
      refine topmost fun profile member => ?_
      rw [version]
      exact hides.topmost rfl profile (List.mem_of_mem_filter member)
        (isGlobal_iff.mp (List.mem_filter.mp member).2)

end Adoption

/-! ## Approval and rollback -/

section Pipeline

variable {pipeline : LearningPipeline Score} {proposal : LearningProposal Score}
  {proposalId : String} {stores : Stores Score} {state : LearningState Score}
  {first second : Occasion}

/-- The profile that a rollback directly after the adoption finds. -/
theorem adoptedProfile_noted
    (adopts : save table now (adoptedFrom stamp content projectId) = .ok (next, adopted))
    (here : state.preferences = next) (third : Stamp) :
    ∃ current, adoptedProfile third (Entity.touch later (noted proposal adopted)) state =
        .ok current state ∧
      if projectId = "" then last (next.list.filter isGlobal) = some current
      else current = adopted := by
  rcases save_adoptedFrom adopts with ⟨_, scope, scopeId, _⟩
  have read : (Entity.touch later (noted proposal adopted)).provenance.get
      "adopted_scope_id" = some (.str projectId) := by
    rw [← scopeId]
    exact (get_noted proposal adopted).2
  by_cases empty : projectId = ""
  · subst empty
    rcases found : last (next.list.filter isGlobal) with _ | current
    · rw [last_filter, latest_eq_none_iff, filter_save adopts,
        if_pos (isGlobal_iff.mpr scope)] at found
      simp at found
    · refine ⟨current, ?_, by rw [if_pos rfl]⟩
      simp only [adoptedProfile, read, if_true, getGlobal, here, found, Option.getD_some]
  · have inProject : (adoptedFrom stamp content projectId).scope = .project := if_pos empty
    have own : getProject next projectId = some adopted := by
      rw [(save_project adopts inProject).2]
      exact if_pos rfl
    refine ⟨adopted, ?_, by rw [if_neg empty]⟩
    simp only [adoptedProfile, read, if_neg empty, here, own]

/-- Whatever profile the rollback finds. -/
theorem undoes_iff {third : Stamp}
    (adopts : save table now (adoptedFrom stamp content projectId) = .ok (next, adopted))
    (found : if projectId = "" then last (next.list.filter isGlobal) = some current
      else current = adopted)
    (reverts : save next later (reverted third content current) = .ok (final, saved))
    (reading : Stamp) :
    Undoes table next final reading content projectId ↔
      HidesNothing table reading now content projectId := by
  by_cases empty : projectId = ""
  · subst empty
    rw [if_pos rfl] at found
    exact undoes_global_iff adopts found reverts
  · rw [if_neg empty] at found
    subst found
    exact undoes_project_iff empty adopts reverts

variable [LE Score] [LT Score] [DecidableLE Score] [DecidableLT Score] [Zero Score]
  [One Score]

/-- A proposal is approved as a preference and rolled back directly afterwards, and this
undoes it. -/
def LearningPipeline.Reverses (pipeline : LearningPipeline Score) (first second : Occasion)
    (proposalId content : String) (stores : Stores Score) (projectId : String)
    (reading : Stamp) (state : LearningState Score) : Prop :=
  ∃ created approved restored,
    pipeline.approve first proposalId "preference" stores projectId state =
      .ok created approved ∧
    rollback second proposalId stores approved = .ok true restored ∧
    Undoes state.preferences approved.preferences restored.preferences reading content
      projectId

/-- A valid proposal is adopted and rolled back without a trace exactly if the adopted
profile hides nothing. -/
theorem LearningPipeline.reverses_iff (adopts : pipeline.Adopts proposal)
    (stored : state.proposals.get proposalId = some proposal)
    (provided : stores.preferences = true)
    (unused : state.preferences.get first.id = none)
    (unusedLater : state.preferences.get second.id = none)
    (distinct : second.id ≠ first.id) (projectId : String) (reading : Stamp) :
    pipeline.Reverses first second proposalId proposal.content stores projectId reading
        state ↔
      HidesNothing state.preferences reading first.now proposal.content projectId := by
  rcases save_ok_of_unused (adoptedFrom first.toStamp proposal.content projectId) unused
    first.now with ⟨next, adopted, saves⟩
  have approves := approve_preference adopts stored provided saves
  -- the proposal is read back as it was noted
  have own : proposalId = Entity.id (noted proposal adopted) :=
    (SnapshotTable.id_of_get stored).symm
  have read := SnapshotTable.get_update state.proposals first.later (noted proposal adopted)
    proposalId
  rw [if_pos own] at read
  let approved : LearningState Score := { state with
    preferences := next
    proposals := (state.proposals.update first.later (noted proposal adopted)).1 }
  have here : approved.preferences = next := rfl
  rcases adoptedProfile_noted saves here second.toStamp with ⟨current, found, which⟩
  have free : next.get second.id = none := by
    rw [get_save saves]
    exact (if_neg distinct).trans unusedLater
  rcases save_ok_of_unused (reverted second.toStamp proposal.content current) free
    second.now with ⟨final, saved, reverts⟩
  have target : (Entity.touch first.later (noted proposal adopted)).provenance.get
      "adopted_target" = some (.str "preference") := (get_noted proposal adopted).1
  have stored : approved.proposals.get proposalId =
      some (Entity.touch first.later (noted proposal adopted)) := read
  have rolls := rollback_preference stored rfl target provided found reverts
  rw [← undoes_iff saves which reverts reading]
  constructor
  · rintro ⟨created, other, restored, approving, rolling, undone⟩
    rw [approves] at approving
    cases approving
    rw [rolls] at rolling
    cases rolling
    exact undone
  · intro undone
    exact ⟨_, _, _, approves, rolls, undone⟩

end Pipeline

/-! ## A first preference, and a second one -/

def noticed : LearningProposal Nat where
  id := "p1"
  createdAt := 1
  updatedAt := 1
  kind := .workflowHint
  content := "Noticed pattern: tests first"
  confidence := 1
  provenance := Dict.empty.set "evidence" (.arr [.str "tool:pytestx5"])

def learner : LearningPipeline Nat where
  minConfidence := 1
  floatText := toString

def noticedState (preferences : PreferenceTable) : LearningState Nat where
  proposals := (SnapshotTable.empty "learning_proposals").append noticed rfl
  memories := SnapshotTable.empty "memories"
  preferences := preferences

/-- A global profile with a workflow and a tool. -/
def settledPreferences : PreferenceTable :=
  (SnapshotTable.empty "preferences").append {
    id := "g1"
    createdAt := 1
    updatedAt := 1
    preferredWorkflows := ["review"]
    preferredTools := ["git"] } rfl

def approval : Occasion where
  id := "a1"
  now := 10
  later := 11

def withdrawal : Occasion where
  id := "a2"
  now := 20
  later := 21

def preferenceStores : Stores Nat where
  preferences := true

theorem learner_adopts : learner.Adopts noticed :=
  ⟨rfl, rfl, rfl, by decide⟩

theorem reverses_of_fresh : learner.Reverses approval withdrawal "p1" noticed.content
    preferenceStores "" approval.toStamp (noticedState (SnapshotTable.empty "preferences")) := by
  refine (reverses_iff learner_adopts rfl rfl rfl rfl (by decide) "" approval.toStamp).mpr
    ⟨rfl, fun _ member => absurd member List.not_mem_nil, ?_⟩
  intro _ profile member
  cases member

/-- The workflow and the tool of the global profile are gone after an adoption. -/
theorem adoption_drops_preferences :
    learner.Adopts noticed ∧
    (effective settledPreferences approval.toStamp "").tools = ["git"] ∧
    (∃ created approved, learner.approve approval "p1" "preference" preferenceStores ""
        (noticedState settledPreferences) = .ok created approved ∧
      (effective approved.preferences approval.toStamp "").workflows = [noticed.content] ∧
      (effective approved.preferences approval.toStamp "").tools = []) ∧
    ¬ learner.Reverses approval withdrawal "p1" noticed.content preferenceStores ""
      approval.toStamp (noticedState settledPreferences) := by
  refine ⟨learner_adopts, rfl, ⟨_, _, rfl, rfl, rfl⟩, ?_⟩
  rintro ⟨created, approved, restored, approves, _, _, undone⟩
  have kept := (undone "").1.tools
  cases approves
  cases kept

end Raphael.Learning
