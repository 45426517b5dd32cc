import Raphael.Personalization.Preferences

/-! # The learning pipeline

A proposal is validated, adopted into the memories or the preferences, and rolled back.
Confidence is a float: any type with its comparisons. -/

namespace Raphael.Learning

open Core Foundation Persistence Personalization

inductive ProposalKind
  | preference
  | workflowHint
  | modelHint
  | communication
  deriving DecidableEq, Repr

def ProposalKind.value : ProposalKind → String
  | .preference => "PREFERENCE"
  | .workflowHint => "WORKFLOW_HINT"
  | .modelHint => "MODEL_HINT"
  | .communication => "COMMUNICATION"

inductive ProposalStatus
  | proposed
  | adopted
  | rejected
  | rolledBack
  deriving DecidableEq, Repr

def ProposalStatus.value : ProposalStatus → String
  | .proposed => "PROPOSED"
  | .adopted => "ADOPTED"
  | .rejected => "REJECTED"
  | .rolledBack => "ROLLED_BACK"

structure LearningProposal (Score : Type) where
  id : String
  createdAt : Int
  updatedAt : Int
  kind : ProposalKind := .preference
  content : String := ""
  patternId : String := ""
  confidence : Score
  scope : String := ""
  status : ProposalStatus := .proposed
  provenance : Dict String Json := Dict.empty

instance {Score : Type} : Entity (LearningProposal Score) where
  id := LearningProposal.id
  updatedAt := LearningProposal.updatedAt
  touch := fun now proposal => { proposal with updatedAt := now }
  id_touch := fun _ _ => rfl

/-! ## The governor -/

inductive LearningMode
  | disabled
  | suggestOnly
  | approvalRequired
  | autoApproveLowRisk
  deriving DecidableEq, Repr

inductive LearningRisk
  | low
  | medium
  | high
  | critical
  deriving DecidableEq, Repr

def criticalHints : List String :=
  ["permission", "permissions", "authorize", "authorized", "authorization", "policy",
    "policies", "credential", "credentials", "secret", "secrets", "sandbox", "password",
    "passwords", "token", "tokens", "sudo", "admin"]

def highHints : List String := ["skill", "allow", "always", "every", "bypass", "disable"]

def mediumHints : List String := ["workflow", "prefer", "default"]

/-- `_has_hint`: a whole token of the content. -/
def hasHint (content : String) (hints : List String) : Bool :=
  hints.any (Secrets.tokens content).contains

def classifyChange (kind : ProposalKind) (content : String) : LearningRisk :=
  if hasHint content criticalHints then .critical
  else if hasHint content highHints then .high
  else if kind = .modelHint then .low
  else if kind = .communication then .low
  else if hasHint content mediumHints then .medium
  else .medium

structure LearningGovernor where
  mode : LearningMode := .approvalRequired
  killed : Bool := false

namespace LearningGovernor

variable {Score : Type}

def classify (_ : LearningGovernor) (proposal : LearningProposal Score) : LearningRisk :=
  classifyChange proposal.kind proposal.content

def mayAdopt (governor : LearningGovernor) (proposal : LearningProposal Score)
    (approved : Bool := false) : Bool :=
  if governor.killed ∨ governor.mode = .disabled then false
  else
    let risk := governor.classify proposal
    if risk = .critical then false
    else
      match governor.mode with
      | .suggestOnly => false
      | .approvalRequired => approved
      | .autoApproveLowRisk => approved || risk = .low
      | .disabled => false

end LearningGovernor

/-! ## The pipeline -/

/-- The tables that an adoption touches. -/
structure LearningState (Score : Type) where
  proposals : SnapshotTable (LearningProposal Score)
  memories : SnapshotTable (Memory Score)
  preferences : PreferenceTable

abbrev LearningM (Score : Type) := EStateM Error (LearningState Score)

/-- The stores that a caller provides. -/
structure Stores (Score : Type) where
  memories : Option (MemoryStore Score) := none
  preferences : Bool := false

/-- What a call finds new: an id, the clock when it is made, and when the proposal is
updated. -/
structure Occasion extends Stamp where
  later : Int

/-- The object that an adoption makes. -/
inductive Created (Score : Type)
  | memory (memory : Memory Score)
  | preference (profile : PreferenceProfile)

def Created.id {Score : Type} : Created Score → String
  | .memory made => made.id
  | .preference made => made.id

section Work

variable {Score : Type}

/-- Work on the table of memories. -/
def onMemories (effect : MemoryM Score α) : LearningM Score α := fun state =>
  match effect state.memories with
  | .ok answer memories => .ok answer { state with memories }
  | .error error memories => .error error { state with memories }

/-- A save of a preference profile. -/
def savePreference (now : Int) (profile : PreferenceProfile) :
    LearningM Score PreferenceProfile := fun state =>
  match PreferenceStore.save state.preferences now profile with
  | .ok (preferences, created) => .ok created { state with preferences }
  | .error error => .error error state

def getProposal (proposalId : String) : LearningM Score (LearningProposal Score) :=
  fun state =>
    match state.proposals.get proposalId with
    | some proposal => .ok proposal state
    | none => .error (.domainValidation ("unknown proposal " ++ Text.repr proposalId)) state

def updateProposal (now : Int) (proposal : LearningProposal Score) :
    LearningM Score Unit := fun state =>
  .ok () { state with proposals := (state.proposals.update now proposal).1 }

end Work

namespace ProposalEngine

variable {Score : Type}

/-- `_require_proposed`. -/
def requireProposed (proposal : LearningProposal Score) : LearningM Score Unit :=
  if proposal.status ≠ .proposed then
    throw (.domainValidation ("proposal already " ++ proposal.status.value))
  else pure ()

def adoptToPreferences (occasion : Occasion) (proposal : LearningProposal Score)
    (projectId : String) : LearningM Score (LearningProposal Score × PreferenceProfile) := do
  requireProposed proposal
  if proposal.kind = .communication then
    throw (.domainValidation ("kind " ++ proposal.kind.value ++
      " cannot become a preference"))
  let profile : PreferenceProfile :=
    { PreferenceProfile.fresh occasion.toStamp with
      scope := if projectId ≠ "" then .project else .global
      scopeId := projectId
      preferredWorkflows := [proposal.content] }
  let created ← savePreference occasion.now profile
  let proposal := { proposal with
    status := .adopted
    provenance := (proposal.provenance.set "adopted_scope" (.str created.scope.value)).set
      "adopted_scope_id" (.str created.scopeId) }
  return (proposal, created)

def reject (proposal : LearningProposal Score) : LearningM Score (LearningProposal Score) := do
  requireProposed proposal
  return { proposal with status := .rejected }

variable [LE Score] [LT Score] [DecidableLE Score] [DecidableLT Score] [Zero Score]
  [One Score]

def adoptToMemory (store : MemoryStore Score) (occasion : Occasion)
    (proposal : LearningProposal Score) :
    LearningM Score (LearningProposal Score × Memory Score) := do
  requireProposed proposal
  let candidate : MemoryCandidate Score := {
    content := proposal.content
    type := .experience
    source := "learning:" ++ proposal.patternId
    confidence := proposal.confidence
    importance := proposal.confidence
    scope := .global
    reason := "adopted learning proposal"
    metadata := [("proposal_id", .str proposal.id)] }
  let created ← onMemories (store.store occasion.id occasion.now candidate)
  return ({ proposal with status := .adopted }, created)

end ProposalEngine

structure LearningPipeline (Score : Type) where
  minConfidence : Score
  governor : Option LearningGovernor := none
  /-- `str(value)`. -/
  floatText : Score → String

namespace LearningPipeline

variable {Score : Type}

/-- The profile that `_revert_preference` reverts. -/
def adoptedProfile (stamp : Stamp) (proposal : LearningProposal Score) :
    LearningM Score PreferenceProfile := fun state =>
  let gone := Error.domainValidation "adopted profile is gone"
  match proposal.provenance.get "adopted_scope_id" with
  | none => .ok (PreferenceStore.getGlobal state.preferences stamp) state
  | some (.str scopeId) =>
      if scopeId = "" then .ok (PreferenceStore.getGlobal state.preferences stamp) state
      else
        match PreferenceStore.getProject state.preferences scopeId with
        | some current => .ok current state
        | none => .error gone state
  | some value =>
      if value.truthy then .error gone state
      else .ok (PreferenceStore.getGlobal state.preferences stamp) state

/-- A profile without what contains the content. -/
def reverted (stamp : Stamp) (content : String) (current : PreferenceProfile) :
    PreferenceProfile :=
  { PreferenceProfile.fresh stamp with
    scope := current.scope
    scopeId := current.scopeId
    preferredWorkflows := current.preferredWorkflows.filter fun workflow =>
      workflow ≠ content && !Text.contains content workflow
    preferredTools := current.preferredTools
    outputFormat := current.outputFormat
    defaults := current.defaults.filter fun _ value => !Text.contains content value }

/-- `_revert_preference`. -/
def revertPreference (occasion : Occasion) (proposal : LearningProposal Score) :
    LearningM Score Unit := do
  let current ← adoptedProfile occasion.toStamp proposal
  let _ ← savePreference occasion.now (reverted occasion.toStamp proposal.content current)

def reject (now : Int) (proposalId : String) : LearningM Score (LearningProposal Score) := do
  let proposal ← getProposal proposalId
  let rejected ← ProposalEngine.reject proposal
  updateProposal now rejected
  return Entity.touch now rejected

/-- A text of the provenance; `approve` writes no others. -/
def provenanceText (proposal : LearningProposal Score) (key : String) : String :=
  match proposal.provenance.get key with
  | some (.str text) => text
  | _ => ""

def rollback (occasion : Occasion) (proposalId : String) (stores : Stores Score) :
    LearningM Score Bool := do
  let proposal ← getProposal proposalId
  if proposal.status ≠ .adopted then
    throw (.domainValidation "only adopted proposals roll back")
  let target := provenanceText proposal "adopted_target"
  if target = "memory" then
    if stores.memories.isNone then
      throw (.domainValidation "no memory store provided")
    let _ ← onMemories (MemoryStore.delete (provenanceText proposal "adopted_object"))
  else if target = "preference" then
    if !stores.preferences then
      throw (.domainValidation "no preference store provided")
    revertPreference occasion proposal
  else throw (.domainValidation ("cannot roll back target " ++ Text.repr target))
  updateProposal occasion.later { proposal with
    status := .rolledBack
    provenance := proposal.provenance.set "rolled_back" (.bool true) }
  return true

variable [LE Score] [LT Score] [DecidableLE Score] [DecidableLT Score] [Zero Score]
  [One Score]

def validate (pipeline : LearningPipeline Score) (proposal : LearningProposal Score) :
    Bool × String :=
  if proposal.confidence < pipeline.minConfidence then
    (false, "confidence " ++ pipeline.floatText proposal.confidence ++ " below minimum")
  else if !((proposal.provenance.get "evidence").any Json.truthy) then
    (false, "proposal lacks evidence")
  else if pipeline.governor.any fun governor => governor.classify proposal = .critical then
    (false, "critical learning content refused")
  else (true, "proposal valid")

/-- What `approve` adopts. -/
def adopt (occasion : Occasion) (proposal : LearningProposal Score) (target : String)
    (stores : Stores Score) (projectId : String) :
    LearningM Score (LearningProposal Score × Created Score) := do
  if target = "memory" then
    match stores.memories with
    | none => throw (.domainValidation "no memory store provided")
    | some store =>
        let (proposal, created) ← ProposalEngine.adoptToMemory store occasion proposal
        return (proposal, .memory created)
  else if target = "preference" then
    if !stores.preferences then
      throw (.domainValidation "no preference store provided")
    let (proposal, created) ← ProposalEngine.adoptToPreferences occasion proposal projectId
    return (proposal, .preference created)
  else throw (.domainValidation ("unknown adoption target " ++ Text.repr target))

def approve (pipeline : LearningPipeline Score) (occasion : Occasion) (proposalId : String)
    (target : String) (stores : Stores Score) (projectId : String) :
    LearningM Score (Created Score) := do
  let proposal ← getProposal proposalId
  let (valid, reason) := pipeline.validate proposal
  if !valid then
    throw (.domainValidation ("proposal invalid: " ++ reason))
  if pipeline.governor.any fun governor => !governor.mayAdopt proposal then
    throw (.domainValidation "adoption blocked by learning governor")
  let (proposal, created) ← adopt occasion proposal target stores projectId
  updateProposal occasion.later { proposal with
    provenance := (proposal.provenance.set "adopted_object" (.str created.id)).set
      "adopted_target" (.str target) }
  return created

end LearningPipeline

end Raphael.Learning
